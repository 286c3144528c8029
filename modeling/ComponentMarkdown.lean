import ComponentMarkdown.Text.Basic
import ComponentMarkdown.Text.Word
import ComponentMarkdown.Text.Alphanumeric
import ComponentMarkdown.Text.Hexadecimal
import ComponentMarkdown.Text.Printable
import ComponentMarkdown.Splice
import ComponentMarkdown.Segment
import ComponentMarkdown.Markup.Quoted
import ComponentMarkdown.Markup.Opening
import ComponentMarkdown.Markup.Attributes
import ComponentMarkdown.Markup.CodeSpan
import ComponentMarkdown.Rule.Basic
import ComponentMarkdown.Rule.BraceAttributes
import ComponentMarkdown.Rule.IframeClosing
import ComponentMarkdown.Rule.AttributeCasing
import ComponentMarkdown.Rule.ClassAttribute
import ComponentMarkdown.Rule.Callouts
import ComponentMarkdown.Tally
import ComponentMarkdown.Pipeline
import ComponentMarkdown.Registry
import ComponentMarkdown.Transformer
import ComponentMarkdown.ElementSet
import ComponentMarkdown.Json.Quoted
import ComponentMarkdown.Glob.Pattern
import ComponentMarkdown.Files.Path
import ComponentMarkdown.Files.Tree
import ComponentMarkdown.Files.Disk
import ComponentMarkdown.Files.Glob
import ComponentMarkdown.Yaml.Character
import ComponentMarkdown.Yaml.Quoted
import ComponentMarkdown.Yaml.Plain
import ComponentMarkdown.Yaml.Block
import ComponentMarkdown.Yaml.Property
import ComponentMarkdown.Yaml.Token
import ComponentMarkdown.Yaml.TokenStream
import ComponentMarkdown.Yaml.Node
import ComponentMarkdown.Regex.Mode
import ComponentMarkdown.Regex.Parts
import ComponentMarkdown.Regex.Atom
import ComponentMarkdown.Regex.CharClass
import ComponentMarkdown.Regex.Group
import ComponentMarkdown.Regex.Expression
import ComponentMarkdown.Log
import ComponentMarkdown.Settings
import ComponentMarkdown.Selection
import ComponentMarkdown.Cli.Arguments
import ComponentMarkdown.Cli.FieldValue
import ComponentMarkdown.Cli.LogDirective
import ComponentMarkdown.Cli.LogFilter
import ComponentMarkdown.Cli.Style
import ComponentMarkdown.Cli.Failure
import ComponentMarkdown.Cli.Session
import ComponentMarkdown.Cli.Convert
import ComponentMarkdown.Cli.Check
import ComponentMarkdown.Cli.Run
import ComponentMarkdown.Cli.Reach
import ComponentMarkdown.Main
import ComponentMarkdown.Proofs.Text.Lines
import ComponentMarkdown.Proofs.Text.Bytes
import ComponentMarkdown.Proofs.Text.Blank
import ComponentMarkdown.Proofs.Segment.Fence
import ComponentMarkdown.Proofs.Segment.Shape
import ComponentMarkdown.Proofs.Segment.Partition
import ComponentMarkdown.Proofs.Segment.LineMachine
import ComponentMarkdown.Proofs.Tally.Count
import ComponentMarkdown.Proofs.Pipeline.Counts
import ComponentMarkdown.Proofs.Transformer.Reference
import ComponentMarkdown.Proofs.Markup.Attributes
import ComponentMarkdown.Proofs.Rule.IframeClosing
import ComponentMarkdown.Proofs.Markup.Opening
import ComponentMarkdown.Proofs.Rule.BraceAttributes
import ComponentMarkdown.Proofs.Rule.AttributeCasing
import ComponentMarkdown.Proofs.Markup.CodeSpan
import ComponentMarkdown.Proofs.Rule.Callouts
import ComponentMarkdown.Proofs.Transformer.Settled
import ComponentMarkdown.Proofs.Segment.Case
import ComponentMarkdown.Proofs.Rule.LoweredNames
import ComponentMarkdown.Proofs.Transformer.CasingOnly
import ComponentMarkdown.Proofs.Splice.Composition
import ComponentMarkdown.Proofs.Rule.Substitutions
import ComponentMarkdown.Proofs.Rule.Supply
import ComponentMarkdown.Proofs.Transformer.Changed
import ComponentMarkdown.Proofs.Segment.NoFence
import ComponentMarkdown.Proofs.Segment.Blocks
import ComponentMarkdown.Proofs.Rule.Fences
import ComponentMarkdown.Proofs.Transformer.Verbatim
import ComponentMarkdown.Proofs.Rule.CalloutPairs
import ComponentMarkdown.Proofs.Markup.OutsideMatches
import ComponentMarkdown.Proofs.Rule.CalloutSites
import ComponentMarkdown.Proofs.Transformer.Pairing
import ComponentMarkdown.Proofs.Splice.Pieces
import ComponentMarkdown.Proofs.Splice.Tags
import ComponentMarkdown.Proofs.Rule.TagNames
import ComponentMarkdown.Proofs.Rule.ClassAttribute
import ComponentMarkdown.Proofs.Rule.AttributeScanners
import ComponentMarkdown.Proofs.Tagged.Grammar
import ComponentMarkdown.Proofs.Tagged.Parts
import ComponentMarkdown.Proofs.TaggedText.Grammar
import ComponentMarkdown.Proofs.TaggedText.Rewriting
import ComponentMarkdown.Proofs.TaggedText.Scanning
import ComponentMarkdown.Proofs.TaggedText.Attributes
import ComponentMarkdown.Proofs.TaggedText.InsideTags
import ComponentMarkdown.Proofs.TaggedText.TagEnds
import ComponentMarkdown.Proofs.TaggedText.Iframes
import ComponentMarkdown.Proofs.TaggedText.Classes
import ComponentMarkdown.Proofs.TaggedText.Callouts
import ComponentMarkdown.Proofs.Page.Grammar
import ComponentMarkdown.Proofs.Page.Translation
import ComponentMarkdown.Proofs.Page.Tagged
import ComponentMarkdown.Proofs.Page.BraceAttributes
import ComponentMarkdown.Proofs.Page.Callouts
import ComponentMarkdown.Proofs.Transformer.Pages
import ComponentMarkdown.Proofs.Transformer.Passes
import ComponentMarkdown.Proofs.Files.Tree
import ComponentMarkdown.Proofs.Files.Paths
import ComponentMarkdown.Proofs.Files.Disk
import ComponentMarkdown.Proofs.Cli.Documents
import ComponentMarkdown.Proofs.Cli.InPlace
import ComponentMarkdown.Proofs.Json.Reading
import ComponentMarkdown.Proofs.Cli.Reports
import ComponentMarkdown.Proofs.Cli.Modes
import ComponentMarkdown.Proofs.Splice.LineEnds
import ComponentMarkdown.Proofs.Markup.LineEnds
import ComponentMarkdown.Proofs.Rule.LineEnds
import ComponentMarkdown.Proofs.Rule.CalloutLineEnds
import ComponentMarkdown.Proofs.Segment.LineEnds
import ComponentMarkdown.Proofs.Rule.Insertions
import ComponentMarkdown.Proofs.Transformer.LineEnds
import ComponentMarkdown.Proofs.Transformer.QuotedValues
import ComponentMarkdown.Proofs.TaggedText.Repeated
import ComponentMarkdown.Proofs.Transformer.Calm
import ComponentMarkdown.Proofs.Transformer.SecondPass
import ComponentMarkdown.Proofs.Segment.Locality
import ComponentMarkdown.Proofs.Transformer.Locality
import ComponentMarkdown.Proofs.Rule.CalloutPartners
import ComponentMarkdown.Proofs.TaggedText.LoneCallout
import ComponentMarkdown.Proofs.Html.StartTag
import ComponentMarkdown.Proofs.Html.Attributes
import ComponentMarkdown.Proofs.Html.ClassUses
import ComponentMarkdown.Proofs.Html.Containers
import ComponentMarkdown.Proofs.Html.Callouts
import ComponentMarkdown.Proofs.Splice.Extent
import ComponentMarkdown.Proofs.Rule.CasingExtent
import ComponentMarkdown.Proofs.BracedText.Grammar
import ComponentMarkdown.Proofs.BracedText.Conversion
import ComponentMarkdown.Proofs.Markup.QuoteState
import ComponentMarkdown.Proofs.Rule.IframeAgain
import ComponentMarkdown.Proofs.NestedTag.Grammar
import ComponentMarkdown.Proofs.NestedTag.BraceAttributes
import ComponentMarkdown.Proofs.Markup.Backticks
import ComponentMarkdown.Proofs.Markup.CodeRanges
import ComponentMarkdown.Proofs.Markup.OutsideCode
import ComponentMarkdown.Proofs.Pipeline.Append
import ComponentMarkdown.Proofs.NestedTag.AttributeCasing
import ComponentMarkdown.Proofs.Tally.Counters
import ComponentMarkdown.Proofs.Cli.Summary
import ComponentMarkdown.Proofs.ElementSet.KebabCase
import ComponentMarkdown.Proofs.ElementSet.Names
import ComponentMarkdown.Proofs.ElementSet.Spellings
import ComponentMarkdown.Proofs.Settings.Checking
import ComponentMarkdown.Proofs.Selection.Documents
import ComponentMarkdown.Proofs.Selection.ArgumentOrder
import ComponentMarkdown.Proofs.Splice.Matches
import ComponentMarkdown.Proofs.Splice.Stretches
import ComponentMarkdown.Proofs.Splice.Copying
import ComponentMarkdown.Proofs.Cli.Interrupted
