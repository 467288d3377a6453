import ShapeRules.CommandLine.Arguments
import ShapeRules.CommandLine.Help
import ShapeRules.CommandLine.Outcome
import ShapeRules.Configuration
import ShapeRules.Event
import ShapeRules.Files
import ShapeRules.Json.Basic
import ShapeRules.Json.Decode
import ShapeRules.Json.Draft
import ShapeRules.Json.Numeral
import ShapeRules.Json.Text
import ShapeRules.Keyed
import ShapeRules.Kind
import ShapeRules.Main
import ShapeRules.Model
import ShapeRules.Model.Document
import ShapeRules.Number.Binary64
import ShapeRules.Number.Shortest
import ShapeRules.Path.Basic
import ShapeRules.Path.Canonical
import ShapeRules.Path.Complaint
import ShapeRules.Path.Evaluation
import ShapeRules.Path.Reading
import ShapeRules.Progress
import ShapeRules.Proofs.Aligned
import ShapeRules.Proofs.CommandLine.Verdict
import ShapeRules.Proofs.Complaint
import ShapeRules.Proofs.Configuration
import ShapeRules.Proofs.Event
import ShapeRules.Proofs.Fallible
import ShapeRules.Proofs.Json.Decode
import ShapeRules.Proofs.Json.Equality
import ShapeRules.Proofs.Json.Reading
import ShapeRules.Proofs.Json.Records
import ShapeRules.Proofs.Keyed
import ShapeRules.Proofs.Loop
import ShapeRules.Proofs.Model.Building
import ShapeRules.Proofs.Model.Declarations
import ShapeRules.Proofs.Model.Demands
import ShapeRules.Proofs.Model.Document
import ShapeRules.Proofs.Model.Enumeration
import ShapeRules.Proofs.Model.Loaded
import ShapeRules.Proofs.Model.Lookup
import ShapeRules.Proofs.Model.Members
import ShapeRules.Proofs.Model.Translation
import ShapeRules.Proofs.Model.WellFormed
import ShapeRules.Proofs.Path.Arguments
import ShapeRules.Proofs.Path.Canonical
import ShapeRules.Proofs.Path.Congruence
import ShapeRules.Proofs.Path.DeclaredTraits
import ShapeRules.Proofs.Path.Evaluation
import ShapeRules.Proofs.Path.Extent
import ShapeRules.Proofs.Path.Faults
import ShapeRules.Proofs.Path.Grammar
import ShapeRules.Proofs.Path.Indiscernible
import ShapeRules.Proofs.Path.Nodes
import ShapeRules.Proofs.Path.Reading
import ShapeRules.Proofs.Path.Results
import ShapeRules.Proofs.Path.Rounds
import ShapeRules.Proofs.Path.Segments
import ShapeRules.Proofs.Path.Shapes
import ShapeRules.Proofs.Path.TraitNames
import ShapeRules.Proofs.Path.Variables
import ShapeRules.Proofs.Path.WellFormed
import ShapeRules.Proofs.Preview
import ShapeRules.Proofs.Settings
import ShapeRules.Proofs.Shape.Building
import ShapeRules.Proofs.Shape.Tables
import ShapeRules.Proofs.ShapeId
import ShapeRules.Proofs.ShapeId.Spelling
import ShapeRules.Proofs.Template.Concatenation
import ShapeRules.Proofs.Template.Encoding
import ShapeRules.Proofs.Template.Normal
import ShapeRules.Proofs.Template.Pieces
import ShapeRules.Proofs.Template.Progress
import ShapeRules.Proofs.Template.Represents
import ShapeRules.Proofs.Template.Scanning
import ShapeRules.Proofs.Template.Spans
import ShapeRules.Proofs.Template.Variables
import ShapeRules.Proofs.Text.Ascii
import ShapeRules.Proofs.Text.Cursor
import ShapeRules.Proofs.Text.Location
import ShapeRules.Proofs.Text.Numeral
import ShapeRules.Proofs.Text.Run
import ShapeRules.Proofs.Text.Walk
import ShapeRules.Proofs.Validator
import ShapeRules.Proofs.Value
import ShapeRules.Proofs.Value.Alike
import ShapeRules.Proofs.Value.Equality
import ShapeRules.Selector
import ShapeRules.Settings
import ShapeRules.Severity
import ShapeRules.Shape
import ShapeRules.ShapeId
import ShapeRules.Template.Basic
import ShapeRules.Template.Rendering
import ShapeRules.Text.Cursor
import ShapeRules.Text.Location
import ShapeRules.Text.Quoted
import ShapeRules.Text.Shapeless
import ShapeRules.Text.Space
import ShapeRules.Validator
import ShapeRules.Value
import ShapeRules.Yaml.Cursor
import ShapeRules.Yaml.Node
import ShapeRules.Yaml.Property
import ShapeRules.Yaml.Scalar
import ShapeRules.Yaml.Schema
import ShapeRules.Yaml.Token
