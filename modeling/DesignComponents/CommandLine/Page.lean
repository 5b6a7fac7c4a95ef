import DesignComponents.Text.Search

/-! The texts that explain the commands. -/

set_option autoImplicit false

namespace DesignComponents.CommandLine

/-- What explains a command: how it is called, and what is to know of its parts. -/
structure Page where
  name : String
  usage : List String
  body : List String

namespace Page

def usageText (p : Page) : String := Text.unlines p.usage

def text (p : Page) : String := p.usageText ++ "\n" ++ Text.unlines p.body

/-- How a refusal is told. -/
def refusal (p : Page) (message : String) : String :=
  p.usageText ++ s!"{p.name}: error: {message}\n"

def indented (width : Nat) (lines : List String) : List String :=
  lines.map (String.ofList (List.replicate width ' ') ++ ·)

def helpRow : String := "  -h, --help            show this help message and exit"

def inputRows : List String := [
  "  --input INPUT, -i INPUT",
  "                        Figma JSON export (.json) or SVG file"]

def keyRows : List String := ["  --file-key FILE_KEY   Figma file key or URL"]

/-- How a component's settings are given. -/
def choiceUsage : List String := [
  "[--framework \x7breact,vue,angular,svelte,html\x7d]",
  "[--styling \x7bcss,scss,tailwind,styled\x7d]",
  "[--typescript | --no-typescript] [--name NAME]",
  "[--output OUTPUT] [--pass-props]",
  "[--render-children] [--memo] [--unit-tests]"]

def choiceRows : List String := [
  "  --framework \x7breact,vue,angular,svelte,html\x7d, -f \x7breact,vue,angular,svelte,html\x7d",
  "                        Target framework",
  "  --styling \x7bcss,scss,tailwind,styled\x7d, -s \x7bcss,scss,tailwind,styled\x7d",
  "                        Styling strategy",
  "  --typescript, --no-typescript",
  "                        Emit TypeScript",
  "  --name NAME, -n NAME  Component name",
  "  --output OUTPUT, -o OUTPUT",
  "                        Output directory",
  "  --pass-props          Spread extra props onto the root element",
  "  --render-children     Render a children slot in the root element",
  "  --memo                Wrap React components in React.memo",
  "  --unit-tests          Emit a component test file"]

def examples (lines : List String) : List String := ["", "Examples:"] ++ lines

def program : Page where
  name := "airis-codegen"
  usage := [
    "usage: airis-codegen [-h] [--config CONFIG] [--version]",
    "                     \x7bgenerate,analyze,watch\x7d ..."]
  body := [
    "AiIRIS-codegen: Design → Framework Code",
    "",
    "positional arguments:",
    "  \x7bgenerate,analyze,watch\x7d",
    "    generate            Design → component files",
    "    analyze             Detect UI patterns",
    "    watch               Regenerate when the input file changes",
    "",
    "options:",
    helpRow,
    "  --config CONFIG, -c CONFIG",
    "                        Config path",
    "  --version, -v         show program's version number and exit",
    "",
    "AiIRIS-codegen CLI — 設計稿 / SVG → 框架元件程式碼",
    "",
    "  airis-codegen generate --input design.json --framework vue --output ./out",
    "  airis-codegen generate --file-key KEY --framework react --styling tailwind",
    "  airis-codegen analyze --input icon.svg        # 列出偵測到的 UI pattern",
    "  airis-codegen watch --input design.svg        # 檔案變更時自動重新產生"]

def generate : Page where
  name := "airis-codegen generate"
  usage := "usage: airis-codegen generate [-h] [--input INPUT] [--file-key FILE_KEY]" ::
    indented 30 choiceUsage
  body := ["options:", helpRow] ++ inputRows ++ keyRows ++ choiceRows ++ examples [
    "  airis-codegen generate --input design.json --framework vue",
    "  airis-codegen generate --file-key ABC123 --styling tailwind --output ./out"]

def analyze : Page where
  name := "airis-codegen analyze"
  usage := ["usage: airis-codegen analyze [-h] [--input INPUT] [--file-key FILE_KEY]"]
  body := ["options:", helpRow] ++ inputRows ++ keyRows ++ examples [
    "  airis-codegen analyze --input design.json",
    "  airis-codegen analyze --file-key ABC123"]

def watch : Page where
  name := "airis-codegen watch"
  usage := "usage: airis-codegen watch [-h] --input INPUT" :: indented 27 choiceUsage
  body := ["options:", helpRow] ++ inputRows ++ choiceRows ++ examples [
    "  airis-codegen watch --input design.svg --framework svelte"]

end Page

end DesignComponents.CommandLine
