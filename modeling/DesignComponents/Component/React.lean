import DesignComponents.Component.Basic
import DesignComponents.Component.Manifest

/-! React components. -/

set_option autoImplicit false

namespace DesignComponents.Component.React

open Text Style

def styleImport (config : Config) (name : String) : String :=
  match config.style with
  | .styled => "import styled from 'styled-components';"
  | style => s!"import '../styles/{Identifier.slug name}.{style.extension}';"

/-- The element that carries the styles, where they are part of the component. -/
def styledRoot (name css : String) : List String := [
  s!"const {name}Root = styled.div\x60",
  indented 2 (trimmed css),
  "\x60;",
  ""]

def styledBody (name jsx : String) : List String := [
  s!"    <{name}Root className=\x7bclassName\x7d>",
  indented 2 jsx,
  s!"    </{name}Root>"]

def propsInterface (name : String) : List String := [
  s!"interface {name}Props \x7b",
  "  className?: string;",
  "  children?: React.ReactNode;",
  "  [key: string]: any;",
  "\x7d",
  ""]

def signature (name : String) (typed : Bool) : String :=
  (if typed then s!"const {name}: React.FC<{name}Props> = " else s!"const {name} = ") ++
    "(\x7b className = '', children, ...props \x7d) => \x7b"

def code (jsx css : String) (config : Config) (name : String) : String := unlines <|
  ["import React from 'react';", styleImport config name, ""] ++
  (if config.style = .styled then styledRoot name css else []) ++
  (if config.isTyped then propsInterface name else []) ++
  [s!"/** {name} — generated from design. */", signature name config.isTyped, "  return ("] ++
  (if config.style = .styled then styledBody name jsx else [jsx]) ++
  ["  );", "\x7d;", "",
    if config.memo.isTruthy then s!"export default React.memo({name});"
    else s!"export default {name};"]

def manifest (typed : Bool) : Manifest where
  name := "React"
  extension := if typed then ".tsx" else ".jsx"
  dependencies := ["react@^18.2.0", "react-dom@^18.2.0"]
  devDependencies := ["@vitejs/plugin-react@^4.0.0", "vite@^4.4.0"] ++
    if typed then ["@types/react@^18.2.0", "@types/react-dom@^18.2.0", "typescript@^5.0.0"] else []
  configFiles := .ofList [
    ("vite.config.js", ProjectFiles.vite "react" "@vitejs/plugin-react" typed)]

def write (jsx css : String) (config : Config) (name : String) : Written where
  code := code jsx css config name
  manifest := manifest config.isTyped

end DesignComponents.Component.React
