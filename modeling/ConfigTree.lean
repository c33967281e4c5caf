import ConfigTree.Main
import ConfigTree.Dictionary.Display
import ConfigTree.Conversion
import ConfigTree.Proofs.Path.Pieces
import ConfigTree.Proofs.Path.Names
import ConfigTree.Proofs.Dictionary.Write
import ConfigTree.Proofs.KeyValue.OwnKey
import ConfigTree.Proofs.KeyValue.Layout
import ConfigTree.Proofs.KeyValue.Entries
import ConfigTree.Proofs.KeyValue.OrderedWrites
import ConfigTree.Proofs.KeyValue.Scope
import ConfigTree.Proofs.Fault.Family
import ConfigTree.Proofs.Node.Look
import ConfigTree.Proofs.Dictionary.LastWrite
import ConfigTree.Proofs.Template.Cutting
import ConfigTree.Proofs.Template.Worth
import ConfigTree.Proofs.Dictionary.Substitution
import ConfigTree.Proofs.Dictionary.Nesting
import ConfigTree.Proofs.Dictionary.Defaults
import ConfigTree.Proofs.Node.Addressable
import ConfigTree.Proofs.Dictionary.ReadBack
import ConfigTree.Proofs.Node.Reach
import ConfigTree.Proofs.Dictionary.Comparison
import ConfigTree.Proofs.Dictionary.Isolation
import ConfigTree.Proofs.Node.Alike
import ConfigTree.Proofs.Dictionary.FieldOrder
import ConfigTree.Proofs.Dictionary.Spelling
import ConfigTree.Proofs.Dictionary.PartWrite
import ConfigTree.Proofs.Text.Lines
import ConfigTree.Proofs.KeyValue.Joined
import ConfigTree.Proofs.KeyValue.QuotedEntries
import ConfigTree.Proofs.Json.Written
import ConfigTree.Proofs.Json.Reading
import ConfigTree.Proofs.Json.Integers
import ConfigTree.Proofs.Json.Strings
import ConfigTree.Proofs.Node.Merged
import ConfigTree.Proofs.Json.Containers
import ConfigTree.Proofs.Json.Values
import ConfigTree.Proofs.Json.RoundTrip
import ConfigTree.Proofs.Node.Leads
import ConfigTree.Proofs.Path.Reads
import ConfigTree.Proofs.Dictionary.Descent
import ConfigTree.Proofs.Dictionary.Effect
import ConfigTree.Proofs.Dictionary.Refusal
import ConfigTree.Proofs.KeyValue.OptionsDocument
import ConfigTree.Proofs.Files.Load
import ConfigTree.Proofs.CommandLine.Arguments
import ConfigTree.Proofs.CommandLine.Pipeline
import ConfigTree.Proofs.Dictionary.TwoWrites
import ConfigTree.Proofs.Dictionary.Escape
import ConfigTree.Proofs.KeyValue.Continued
import ConfigTree.Proofs.KeyValue.Trailing
import ConfigTree.Proofs.Path.Stream
import ConfigTree.Proofs.Dictionary.Interchange
import ConfigTree.Proofs.Dictionary.Inspection
import ConfigTree.Proofs.Conversion.Integers
import ConfigTree.Proofs.Path.Joined
import ConfigTree.Proofs.Text.Pattern
import ConfigTree.Proofs.KeyValue.Header
