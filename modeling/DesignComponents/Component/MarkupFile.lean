import DesignComponents.Component.Basic
import DesignComponents.Component.Manifest

/-! Components in files of markup: of Vue, of Svelte, and plain pages. -/

set_option autoImplicit false

namespace DesignComponents.Component.Vue

open Text

/-! ### Vue -/

def scriptLines (name : String) (typed : Bool) : List String := [
  if typed then "<script lang=\"ts\">" else "<script>",
  s!"// {name} — generated from design.",
  "import \x7b defineComponent \x7d from 'vue';",
  "",
  "export default defineComponent(\x7b",
  s!"  name: '{name}',",
  "  inheritAttrs: false,",
  "  props: \x7b",
  "    className: \x7b",
  "      type: String,",
  "      default: ''",
  "    \x7d",
  "  \x7d,",
  "  setup(props) \x7b",
  "    return \x7b",
  "      ...props",
  "    \x7d;",
  "  \x7d",
  "\x7d);",
  "</script>"]

def styleTag (config : Config) : String :=
  if config.style = .scss then "<style scoped lang=\"scss\">" else "<style scoped>"

def code (jsx css : String) (config : Config) (name : String) : String := unlines <|
  ["<template>", dedented .vue 2 jsx, "</template>", ""] ++
  scriptLines name config.isTyped ++
  ["", styleTag config, trimmed css, "</style>"]

def manifest (typed : Bool) : Manifest where
  name := "Vue"
  extension := ".vue"
  dependencies := ["vue@^3.3.0"]
  devDependencies := ["@vitejs/plugin-vue@^4.0.0", "vite@^4.4.0"] ++
    if typed then ["@vue/tsconfig@^0.4.0"] else []
  configFiles := .ofList <|
    ("vite.config.js", ProjectFiles.vite "vue" "@vitejs/plugin-vue" typed) ::
      if typed then [("tsconfig.json", ProjectFiles.vueTypes)] else []

def write (jsx css : String) (config : Config) (name : String) : Written where
  code := code jsx css config name
  manifest := manifest config.isTyped

end DesignComponents.Component.Vue

namespace DesignComponents.Component.Svelte

open Text

/-! ### Svelte -/

def scriptLines (name : String) (typed : Bool) : List String := [
  if typed then "<script lang=\"ts\">" else "<script>",
  s!"  // {name} — generated from design.",
  if typed then "  export let className: string = '';" else "  export let className = '';",
  "</script>"]

def styleTag (config : Config) : String :=
  if config.style = .scss then "<style lang=\"scss\">" else "<style>"

def code (jsx css : String) (config : Config) (name : String) : String := unlines <|
  scriptLines name config.isTyped ++
  ["", dedented .svelte 4 jsx, "", styleTag config, trimmed css, "</style>"]

def manifest (typed : Bool) : Manifest where
  name := "Svelte"
  extension := ".svelte"
  dependencies := ["svelte@^4.0.0"]
  devDependencies := ["@sveltejs/adapter-auto@^2.0.0", "@sveltejs/kit@^1.20.0", "vite@^4.4.0"] ++
    if typed then ["tslib@^2.4.1", "typescript@^5.0.0"] else []
  configFiles := .ofList <|
    [("svelte.config.js", ProjectFiles.svelteKit typed),
      ("vite.config.js", ProjectFiles.svelteVite)] ++
    if typed then [("tsconfig.json", ProjectFiles.svelteTypes)] else []

def write (jsx css : String) (config : Config) (name : String) : Written where
  code := code jsx css config name
  manifest := manifest config.isTyped

end DesignComponents.Component.Svelte

namespace DesignComponents.Component.Html

open Text

/-! ### Plain pages -/

def headLines (config : Config) (name : String) : List String := [
  "<head>",
  "  <meta charset=\"UTF-8\">",
  "  <meta name=\"viewport\" content=\"width=device-width, initial-scale=1.0\">",
  s!"  <title>{name}</title>",
  "  <link rel=\"stylesheet\" href=\"src/styles/" ++ Identifier.slug name ++ "." ++
    config.style.extension ++ "\">"] ++
  (if config.style = .tailwind then
    ["  <script src=\"https://cdn.tailwindcss.com\"></script>"] else []) ++
  ["</head>"]

def code (jsx : String) (config : Config) (name : String) : String := unlines <|
  ["<!DOCTYPE html>", "<html lang=\"en\">"] ++ headLines config name ++
  ["<body>", s!"  <!-- {name} generated from design -->", indented 2 (dedented .html 4 jsx),
    "</body>", "</html>"]

def write (jsx : String) (config : Config) (name : String) : Written where
  code := code jsx config name
  manifest := { name := "HTML", extension := ".html" }

end DesignComponents.Component.Html
