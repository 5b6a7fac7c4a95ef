import DesignComponents.Component.Config
import DesignComponents.Text.Search

/-! What stands in for a component or a style sheet that has no text. -/

set_option autoImplicit false

namespace DesignComponents.Project.Fallback

open Text Template

def notice : String := "<p>This component was generated from your Figma design.</p>"

def react (name : String) (typed : Bool) : String := unlines [
  "import React from 'react';",
  "",
  (if typed then s!"const {name}: React.FC" else s!"const {name}") ++ " = () => \x7b",
  "  return (",
  "    <div className=\"" ++ Identifier.slug name ++ "\">",
  s!"      <h1>{name}</h1>",
  s!"      {notice}",
  "    </div>",
  "  );",
  "\x7d;",
  "",
  s!"export default {name};"]

def vue (name : String) : String := unlines [
  "<template>",
  "  <div class=\"" ++ Identifier.slug name ++ "\">",
  s!"    <h1>{name}</h1>",
  s!"    {notice}",
  "  </div>",
  "</template>",
  "",
  "<script>",
  "import \x7b defineComponent \x7d from 'vue';",
  "",
  s!"export default defineComponent(\x7b name: '{name}' \x7d);",
  "</script>"]

def angular (name : String) : String := unlines [
  "import \x7b Component \x7d from '@angular/core';",
  "",
  "@Component(\x7b",
  s!"  selector: 'app-{Identifier.slug name}',",
  "  template: \x60<div class=\"" ++ Identifier.slug name ++ s!"\"><h1>{name}</h1></div>\x60",
  "\x7d)",
  s!"export class {name}Component \x7b\x7d"]

def svelte (name : String) : String := unlines [
  "<div class=\"" ++ Identifier.slug name ++ "\">",
  s!"  <h1>{name}</h1>",
  s!"  {notice}",
  "</div>"]

def html (name : String) : String := unlines [
  "<!DOCTYPE html>",
  "<html lang=\"en\">",
  s!"<head><meta charset=\"UTF-8\"><title>{name}</title></head>",
  "<body>",
  "  <div class=\"" ++ Identifier.slug name ++ s!"\"><h1>{name}</h1></div>",
  "</body>",
  "</html>"]

def component (framework : Framework) (name : String) (typed : Bool) : String :=
  match framework with
  | .react => react name typed
  | .vue => vue name
  | .angular => angular name
  | .svelte => svelte name
  | .html => html name

def style (name : String) : String := unlines [
  s!".{Identifier.slug name} \x7b",
  "  padding: 20px;",
  "  background: #f5f5f5;",
  "  border-radius: 8px;",
  "  font-family: Arial, sans-serif;",
  "\x7d",
  "",
  s!".{Identifier.slug name} h1 \x7b",
  "  color: #333;",
  "  margin-bottom: 10px;",
  "\x7d",
  "",
  s!".{Identifier.slug name} p \x7b",
  "  color: #666;",
  "  line-height: 1.5;",
  "\x7d"]

end DesignComponents.Project.Fallback
