import DesignComponents.Figma.Canvas
import DesignComponents.Intake.Check
import DesignComponents.Json.Printer
import DesignComponents.Markup.Chunk
import DesignComponents.Markup.Optimize
import DesignComponents.Markup.Tree
import DesignComponents.Run
import DesignComponents.Source.Svg
import DesignComponents.Worker.Pool

/-! Reading a document into a source tree. Markup that is large is read in chunks, with a pause
after each. -/

set_option autoImplicit false

namespace DesignComponents.Intake

open Text

/-- Through what chunks are transformed: right away, or by workers that are waited for only so
long. -/
inductive Channel where
  | direct
  | workers (timeout : Number)
  deriving DecidableEq, Repr, Inhabited

structure Measures where
  givenSize : Nat
  processedSize : Nat
  chunks : Nat
  deriving DecidableEq, Repr

/-- How much smaller the markup became, in percent. -/
def Measures.ratio (m : Measures) : Binary64 :=
  if m.givenSize = 0 then .zero false
  else
    let saved : Int := m.givenSize - m.processedSize
    (Binary64.ofRatio saved m.givenSize).mul (.ofInt 100)

structure Content where
  tree : Source.Node
  markup : List Char
  metrics : Measures
  warnings : List String := []
  figma : Option Figma.File := none

def utf8Size (text : List Char) : Nat := (text.map Char.utf8Size).foldr (· + ·) 0

def measured (size chunks : Nat) (markup : List Char) : Measures := ⟨size, utf8Size markup, chunks⟩

/-- Workers that may take no time give no answer. -/
def processChunk (channel : Channel) (text : List Char) : Run (List Char) := do
  match channel with
  | .direct => pure ()
  | .workers timeout =>
    let number ← Run.put .takeTask
    if !(← Run.liftFault (Worker.isAwaited timeout)) then
      Run.fail (.ofFailure (Failure.workerTimeout (Worker.taskName number) timeout))
  return Markup.optimize (← Run.rename text)

/-- Where reports of progress go. -/
abbrev Reporter := Number → String → Run Unit

def chunkPercent (done total : Nat) : Number :=
  .real ((Binary64.ofInt 30).add (.ofRatio (40 * done) total))

def processChunks (channel : Channel) (report : Reporter) (total : Nat) :
    Nat → List (List Char) → List (List Char) → Run (List Char)
  | _, processed, [] => do
    Run.check
    pure processed.reverse.flatten
  | done, processed, chunk :: rest => do
    Run.check
    let out ← processChunk channel chunk
    Run.pause
    report (chunkPercent (done + 1) total) s!"Processing chunk {done + 1}/{total}"
    processChunks channel report total (done + 1) (out :: processed) rest

/-- A size in kibibytes with one decimal. -/
def kibibytes (size : Nat) : String :=
  String.ofList (Decimal.fixedText 1 (.ofRatio size 1024))

def chunkedWarning (size count : Nat) : String :=
  s!"Large SVG detected ({kibibytes size}KB), processed in {count} chunks"

/-- The transformed markup, the number of chunks and further warnings. -/
def process (s : Settings) (channel : Channel) (report : Reporter) (c : Checked) :
    Run (List Char × Nat × List String) := do
  if (Number.int c.size).lt s.largeFileThreshold then
    Run.enterStage .processing
    report 20 "Processing SVG..."
    return (← processChunk channel c.cleaned, 1, [])
  else
    Run.enterStage .chunking
    report 20 "Chunking SVG content..."
    let chunks ← Run.liftFault (Markup.chunksOf s.maxChunkSize c.cleaned)
    let total := chunks.length
    let text ← processChunks channel report total 0 [] chunks
    return (text, total, [chunkedWarning c.size total])

def ofMarkup (s : Settings) (channel : Channel) (report : Reporter) (document : Json) :
    Run Content := do
  let checked ← Run.lift (check s document)
  report 5 "Initializing document processing..."
  report 10 "Validating SVG structure..."
  Run.check
  let (combined, count, warnings) ← process s channel report checked
  report 80 "Combining and optimizing..."
  let markup := Markup.optimize combined
  report 95 "Final optimization..."
  let tree ← Run.liftFault (Markup.parse markup)
  return {
    tree, markup, metrics := measured checked.size count markup
    warnings := checked.warnings ++ warnings }

def ofFigma (s : Settings) (report : Reporter) (document : Json) : Run Content := do
  let size := document.byteSize
  Run.lift (checkSize s size)
  report 5 "Initializing document processing..."
  let file ← Run.lift ((Figma.File.ofData document).mapError .failure)
  report 10 s!"Validated Figma document ({file.shape.name} structure)"
  Run.check
  Run.enterStage .processing
  report 20 "Converting Figma nodes..."
  let tree ← Run.liftFault (Figma.canvas (.real (.zero false)) file)
  Run.pause
  Run.check
  report 80 "Rendering markup..."
  let markup ← Run.liftFault tree.toSvg
  report 95 "Final optimization..."
  return { tree, markup, metrics := measured size 0 markup, figma := some file }

def isCancellation : Trouble → Bool
  | .failure f => f.kind = .cancelled
  | .fault _ => false

def stageAfter (t : Trouble) : Stage := if isCancellation t then .cancelled else .failed

def read (s : Settings) (channel : Channel) (report : Reporter) (document : Json) :
    Run Content := do
  Run.enterStage .validating
  let content ← Script.onFail (fun t => Run.enterStage (stageAfter t)) <|
    match document with
    | .obj _ => ofFigma s report document
    | _ => ofMarkup s channel report document
  Run.enterStage .done
  report 100 "Processing complete!"
  return content

/-! ### A run of its own -/

def answer : Run.Answerer (Services × Listener) := fun q (services, listener) =>
  match q with
  | .report percent label => ((), services, listener.hear ⟨percent, label⟩)
  | .isCancelled => (listener.token.cancelled, services, listener)
  | .pause => ((), services, listener)
  | .enterStage stage => ((), { services with stage }, listener)
  | .enterPhase _ => ((), services, listener)
  | .takeTask => let (n, services) := services.takeTask; (n, services, listener)
  | .rename markup => let (out, services) := services.rename markup; (out, services, listener)
  | .transform tree => let (out, services) := services.transform tree; (out, services, listener)

/-- Reads one document while `listener` listens. -/
def run (s : Settings) (channel : Channel) (document : Json) (services : Services)
    (listener : Listener) : Except Trouble Content × Services × Listener :=
  (read s channel Run.report document).exec answer (services, listener)

end DesignComponents.Intake
