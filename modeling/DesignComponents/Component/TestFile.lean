import DesignComponents.Component.Basic

/-! The test file that comes with a component. -/

set_option autoImplicit false

namespace DesignComponents.Component

open Text Template

structure TestFile where
  path : String
  code : String
  devDependencies : List String := []

namespace TestFile

def ending (typed : Bool) : String := if typed then "ts" else "js"

def react (name : String) (typed : Bool) : TestFile where
  path := s!"src/components/__tests__/{name}.test.{ending typed}x"
  code := unlines [
    "import React from 'react';",
    "import \x7b render \x7d from '@testing-library/react';",
    s!"import {name} from '../{name}';",
    "",
    s!"describe('{name}', () => \x7b",
    "  it('renders without crashing', () => \x7b",
    s!"    const \x7b container \x7d = render(<{name} />);",
    "    expect(container.firstChild).toBeTruthy();",
    "  \x7d);",
    "\x7d);"]
  devDependencies := ["@testing-library/react@^14.0.0", "vitest@^0.34.0", "jsdom@^22.1.0"]

def vue (name : String) (typed : Bool) : TestFile where
  path := s!"src/components/__tests__/{name}.spec.{ending typed}"
  code := unlines [
    "import \x7b mount \x7d from '@vue/test-utils';",
    s!"import {name} from '../{name}.vue';",
    "",
    s!"describe('{name}', () => \x7b",
    "  it('renders without crashing', () => \x7b",
    s!"    const wrapper = mount({name});",
    "    expect(wrapper.exists()).toBe(true);",
    "  \x7d);",
    "\x7d);"]
  devDependencies := ["@vue/test-utils@^2.4.0", "vitest@^0.34.0", "jsdom@^22.1.0"]

def svelte (name : String) (typed : Bool) : TestFile where
  path := s!"src/components/__tests__/{name}.test.{ending typed}"
  code := unlines [
    "import \x7b render \x7d from '@testing-library/svelte';",
    s!"import {name} from '../{name}.svelte';",
    "",
    s!"describe('{name}', () => \x7b",
    "  it('renders without crashing', () => \x7b",
    s!"    const \x7b container \x7d = render({name});",
    "    expect(container).toBeTruthy();",
    "  \x7d);",
    "\x7d);"]
  devDependencies := ["@testing-library/svelte@^4.0.0", "vitest@^0.34.0", "jsdom@^22.1.0"]

def angular (name : String) : TestFile where
  path := s!"src/app/{Identifier.slug name}.component.spec.ts"
  code := unlines [
    "import \x7b ComponentFixture, TestBed \x7d from '@angular/core/testing';",
    s!"import \x7b {name}Component \x7d from './{Identifier.slug name}.component';",
    "",
    s!"describe('{name}Component', () => \x7b",
    s!"  let fixture: ComponentFixture<{name}Component>;",
    "",
    "  beforeEach(async () => \x7b",
    "    await TestBed.configureTestingModule(\x7b",
    s!"      declarations: [{name}Component]",
    "    \x7d).compileComponents();",
    s!"    fixture = TestBed.createComponent({name}Component);",
    "  \x7d);",
    "",
    "  it('should create', () => \x7b",
    "    expect(fixture.componentInstance).toBeTruthy();",
    "  \x7d);",
    "\x7d);"]

/-- A plain page has no test. -/
def of? (framework : Framework) (name : String) (typed : Bool) : Option TestFile :=
  match framework with
  | .react => some (react name typed)
  | .vue => some (vue name typed)
  | .svelte => some (svelte name typed)
  | .angular => some (angular name)
  | .html => none

end TestFile

end DesignComponents.Component
