import TagHelpers.Bind.Lowering
import TagHelpers.Markup.BoundTree
import TagHelpers.Pipeline.Document
import TagHelpers.RenderTree.OfMarkup

/-!
# Passes and the engine

A pass is a step of working on a document. The engine runs its passes by their order, those of equal
order in the order in which they were registered, and stops at the first one that cannot run.
-/

namespace TagHelpers

/-- Why a pass cannot run. -/
inductive PipelineError where
  /-- The tag helpers of the document are not selected. -/
  | missingSelection
  /-- The document of a path has no render tree. -/
  | missingTree (path : String)
  deriving DecidableEq, Repr

/-- The wording of an error. -/
def PipelineError.message : PipelineError → String
  | missingSelection => "pass 'tag-helper-rewrite' requires tag helper selection to have run"
  | missingTree path =>
    s!"pass 'bind-lowering' requires an intermediate tree for component document '{path}'"

/-- A step of working on a document. -/
structure Pass where
  name : String
  order : Nat
  run : Options → Document → Except PipelineError Document

namespace Pass

/-- Selects the tag helpers of a document. -/
def scan : Pass where
  name := "directive-scan"
  order := 100
  run _ d :=
    let s := d.select
    .ok { d with selection := some { s with diagnostics := [] },
                 diagnostics := d.diagnostics ++ s.diagnostics }

/-- Binds the elements of a document. -/
def bindTags : Pass where
  name := "tag-helper-rewrite"
  order := 200
  run options d :=
    match d.selection with
    | none => .error .missingSelection
    | some s =>
      if s.helpers.isEmpty then .ok d
      else
        let (markup, diagnostics) :=
          d.markup.bindElements (.ofHelpers s.tagPrefix s.helpers) options
        .ok { d with markup, diagnostics := d.diagnostics ++ diagnostics }

/-- Makes the render tree of a document. -/
def classify : Pass where
  name := "classify"
  order := 1000
  run _ d := .ok { d with tree := some (.ofMarkup d.markup) }

/-- Lowers the bind attributes of a component document. -/
def lowerBinds : Pass where
  name := "bind-lowering"
  order := 1100
  run _ d :=
    if d.kind.isComponent then
      match d.tree with
      | some t => .ok { d with tree := some (t.lowerBinds d.catalog) }
      | none => .error (.missingTree d.path)
    else .ok d

end Pass

/-- Passes in the order in which they run, with the options that they run with. -/
structure Engine where
  options : Options := {}
  passes : List Pass := []

namespace Engine

/-- Puts a pass after those of lower or equal order. -/
def insertPass (p : Pass) : List Pass → List Pass
  | [] => [p]
  | q :: rest => if q.order ≤ p.order then q :: insertPass p rest else p :: q :: rest

/-- Adds a pass. -/
def register (e : Engine) (p : Pass) : Engine :=
  { e with passes := insertPass p e.passes }

/-- The engine with the passes that every document needs. The render tree is made by a pass of the
host. -/
def standard (options : Options) : Engine :=
  [Pass.scan, Pass.bindTags, Pass.lowerBinds].foldl register { options }

/-- Runs passes until one fails. Returns the document as far as it was brought. -/
def runPasses (options : Options) : List Pass → Document → Document × Option PipelineError
  | [], d => (d, none)
  | p :: rest, d =>
    match p.run options d with
    | .ok d => runPasses options rest d
    | .error e => (d, some e)

/-- Works on a document. -/
def process (e : Engine) (d : Document) : Document × Option PipelineError :=
  runPasses e.options e.passes d

end Engine

end TagHelpers
