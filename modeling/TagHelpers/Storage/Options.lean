import TagHelpers.Diagnostic
import TagHelpers.Json.Reader
import TagHelpers.Options

/-!
# Stored options and diagnostics

Both options may be left out, and then hold. A kind of document is stored by its name.

A span is stored as an object with its two offsets, a diagnostic as an object with the name of its
code, its span and its message. All fields are required.
-/

namespace TagHelpers

open Json (Reader Field Value)

/-- Reads options. -/
def Options.read : Reader Options :=
  Reader.record "CompilerOptions"
    [.optional "allowMinimizedBooleanTagHelperAttributes" Reader.bool fun b o =>
        { o with allowMinimizedBoolean := b },
      .optional "validateAllowedChildren" Reader.bool fun b o => { o with validateChildren := b }]
    {}

/-- The stored form of options. -/
def Options.toJson (o : Options) : Value :=
  .record [("allowMinimizedBooleanTagHelperAttributes", .bool o.allowMinimizedBoolean),
    ("validateAllowedChildren", .bool o.validateChildren)]

/-- Reads a kind of document. -/
def DocumentKind.read : Reader DocumentKind :=
  Reader.choice DocumentKind.name DocumentKind.all

/-- Reads a span. -/
def Span.read : Reader Span :=
  Reader.record "Span"
    [.mandatory "start" Reader.offset fun n s => { s with start := n },
      .mandatory "end" Reader.offset fun n s => { s with stop := n }]
    .stub

/-- The stored form of a span. -/
def Span.toJson (s : Span) : Value :=
  .record [("start", .ofNat s.start.toNat), ("end", .ofNat s.stop.toNat)]

/-- Reads a code. -/
def Code.read : Reader Code :=
  Reader.choice Code.name Code.all

/-- Reads a diagnostic. -/
def Diagnostic.read : Reader Diagnostic :=
  Reader.record "CompilerError"
    [.mandatory "code" Code.read fun c d => { d with code := c },
      .mandatory "span" Span.read fun s d => { d with span := s },
      .mandatory "message" Reader.text fun m d => { d with message := m }]
    ⟨.invalidLookupText, .stub, ""⟩

/-- The stored form of a diagnostic. -/
def Diagnostic.toJson (d : Diagnostic) : Value :=
  .record [("code", .ofText d.code.name), ("span", d.span.toJson), ("message", .ofText d.message)]

end TagHelpers
