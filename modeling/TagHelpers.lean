import TagHelpers.Text.Basic
import TagHelpers.Text.Casing
import TagHelpers.Text.Quoted
import TagHelpers.Text.TypeName
import TagHelpers.Number.Shortest
import TagHelpers.Diagnostic
import TagHelpers.Options
import TagHelpers.Json.Reader
import TagHelpers.Json.Print
import TagHelpers.Descriptor.Builder
import TagHelpers.Storage.Catalog
import TagHelpers.Storage.Options
import TagHelpers.Attribute.Classification
import TagHelpers.Tag.Binder
import TagHelpers.Markup.Outline
import TagHelpers.Markup.Builder
import TagHelpers.Markup.BoundTree
import TagHelpers.Pipeline.Engine
import TagHelpers.RenderTree.Outline
import TagHelpers.Proofs.Bind.Substitution
import TagHelpers.Proofs.Markup.Source
import TagHelpers.Proofs.Markup.Context
import TagHelpers.Proofs.Markup.Stability
import TagHelpers.Proofs.Markup.Directives
import TagHelpers.Proofs.Markup.CodeText
import TagHelpers.Proofs.Markup.AttributeList
import TagHelpers.Proofs.Markup.FaultyHelpers
import TagHelpers.Proofs.Markup.Children
import TagHelpers.Proofs.Selection.Component
import TagHelpers.Proofs.Storage.Catalog
import TagHelpers.Proofs.Pipeline.Parameters
import TagHelpers.Proofs.Pipeline.Registration
import TagHelpers.Proofs.Tag.Binder
import TagHelpers.Proofs.Bind.Precedence
import TagHelpers.Proofs.Bind.Repetition
import TagHelpers.Proofs.Bind.Event
import TagHelpers.Proofs.Bind.BlankValue
import TagHelpers.Proofs.Markup.Builder
import TagHelpers.Proofs.Descriptor.TypeNamespace
import TagHelpers.Proofs.Pipeline.StableOrder
import TagHelpers.Proofs.RenderTree.Attached
import TagHelpers.Proofs.RenderTree.Edits
import TagHelpers.Proofs.Attribute.Acceptance
import TagHelpers.Proofs.Tag.Prefix
import TagHelpers.Proofs.Selection.Lookup
import TagHelpers.Proofs.Text.Scope
import TagHelpers.Proofs.Text.Literal
import TagHelpers.Proofs.Span.Merging
