import DesignComponents.Text.Cut
import DesignComponents.Text.Trim

/-! Markup text without comments and with single spaces, and whether it holds a drawing. -/

set_option autoImplicit false

namespace DesignComponents.Markup

open Text

def comment : Reader (List Char) := do
  Reader.text "<!--"
  let _ ← Reader.through "-->"
  pure []

def dropComments (text : List Char) : List Char := substitute comment text

def blankRun : Reader (List Char) := do
  let _ ← Reader.blanks1
  pure [' ']

def collapseBlanks (text : List Char) : List Char := trim (substitute blankRun text)

def clean (text : List Char) : List Char := collapseBlanks (dropComments text)

def svgStart : Reader Unit := do
  Reader.char '<'
  Reader.letters "svg"
  let _ ← Reader.one fun c => isBlank c || c == '>' || c == '/'

def hasSvg (text : List Char) : Bool := found svgStart text

end DesignComponents.Markup
