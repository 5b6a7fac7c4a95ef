import DesignComponents.Figma.Canvas
import DesignComponents.Source.Svg

/-! The drawing of exported data as markup text, with something to show where there is none. -/

set_option autoImplicit false

namespace DesignComponents.Figma

open Text

/-- Shown for a file without layers. -/
def emptySvg : String :=
  "<svg width=\"400\" height=\"300\" viewBox=\"0 0 400 300\" xmlns=\"http://www.w3.org/2000/svg\">" ++
  "<rect x=\"50\" y=\"50\" width=\"300\" height=\"200\" fill=\"#f0f0f0\" stroke=\"#ccc\" stroke-width=\"2\" rx=\"8\"/>" ++
  "<text x=\"200\" y=\"160\" text-anchor=\"middle\" font-family=\"Arial, sans-serif\" font-size=\"16\" fill=\"#666\">" ++
  "Generated from Figma</text></svg>"

/-- Shown in place of data that is no design file. -/
def failureSvg (message : String) : String :=
  "<svg width=\"400\" height=\"300\" viewBox=\"0 0 400 300\" xmlns=\"http://www.w3.org/2000/svg\">" ++
  "<rect x=\"10\" y=\"10\" width=\"380\" height=\"280\" fill=\"none\" stroke=\"#ddd\" stroke-width=\"1\"/>" ++
  "<text x=\"200\" y=\"160\" text-anchor=\"middle\" font-family=\"Arial, sans-serif\" font-size=\"14\" fill=\"#999\">" ++
  "SVG Generation Error</text>" ++
  "<text x=\"200\" y=\"180\" text-anchor=\"middle\" font-family=\"Arial, sans-serif\" font-size=\"12\" fill=\"#666\">" ++
  String.ofList (Entity.escapeText message.toList) ++ "</text></svg>"

def svgOf (data : Json) : Except Fault String := do
  match File.ofData data with
  | .error f => return failureSvg f.message
  | .ok file =>
    let root ← canvas 0 file
    if root.children.isEmpty then return emptySvg
    else return String.ofList (← root.toSvg)

end DesignComponents.Figma
