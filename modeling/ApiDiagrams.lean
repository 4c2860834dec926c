import ApiDiagrams.Cache.Entry
import ApiDiagrams.Cache.FileStore
import ApiDiagrams.Cache.Key
import ApiDiagrams.Cache.Retry
import ApiDiagrams.Cache.Sha256
import ApiDiagrams.Cache.Shared
import ApiDiagrams.Cache.Store
import ApiDiagrams.CommandLine.CommaList
import ApiDiagrams.CommandLine.Flag
import ApiDiagrams.CommandLine.Generate
import ApiDiagrams.CommandLine.Reach
import ApiDiagrams.CommandLine.Run
import ApiDiagrams.CommandLine.Session
import ApiDiagrams.CommandLine.Verb
import ApiDiagrams.Config
import ApiDiagrams.Config.Load
import ApiDiagrams.Config.Variables
import ApiDiagrams.Data.Double
import ApiDiagrams.Data.Shape
import ApiDiagrams.Data.Word
import ApiDiagrams.Diagram.Build
import ApiDiagrams.Diagram.Builder
import ApiDiagrams.Diagram.CallGraph
import ApiDiagrams.Diagram.ClassTree
import ApiDiagrams.Diagram.ImportGraph
import ApiDiagrams.Diagram.PackageTree
import ApiDiagrams.Diagram.Style
import ApiDiagrams.Display.Bar
import ApiDiagrams.Display.Line
import ApiDiagrams.Display.Pen
import ApiDiagrams.Display.Piece
import ApiDiagrams.Display.Terminal
import ApiDiagrams.Display.Timings
import ApiDiagrams.Display.Tracker
import ApiDiagrams.Display.Wrap
import ApiDiagrams.Dot.Attrs
import ApiDiagrams.Dot.Canvas
import ApiDiagrams.Dot.Context
import ApiDiagrams.Dot.Graph
import ApiDiagrams.Dot.Html
import ApiDiagrams.Dot.Link
import ApiDiagrams.Dot.Rendering
import ApiDiagrams.Entity
import ApiDiagrams.Fault
import ApiDiagrams.Files.Change
import ApiDiagrams.Files.Path
import ApiDiagrams.Files.Tree
import ApiDiagrams.Glob
import ApiDiagrams.Index
import ApiDiagrams.Json.Read
import ApiDiagrams.Json.Value
import ApiDiagrams.Json.Write
import ApiDiagrams.Log
import ApiDiagrams.Main
import ApiDiagrams.Model
import ApiDiagrams.Model.Format
import ApiDiagrams.Name
import ApiDiagrams.Pages
import ApiDiagrams.Preview
import ApiDiagrams.Proofs.Dot.Attributes
import ApiDiagrams.Proofs.Dot.Drawing
import ApiDiagrams.Proofs.Dot.Naming
import ApiDiagrams.Proofs.Dot.Quoting
import ApiDiagrams.Proofs.Dot.Reader
import ApiDiagrams.Render.Cached
import ApiDiagrams.Render.Command
import ApiDiagrams.Render.Renderer
import ApiDiagrams.Render.Version
import ApiDiagrams.Run.Directive
import ApiDiagrams.Run.Execute
import ApiDiagrams.Run.Output
import ApiDiagrams.Run.Stage
import ApiDiagrams.Run.Target
import ApiDiagrams.Text.Ascii
import ApiDiagrams.Text.Base64
import ApiDiagrams.Text.Blank
import ApiDiagrams.Text.Html
import ApiDiagrams.Text.LetterCase
import ApiDiagrams.Text.Printable
import ApiDiagrams.Text.Quoted
import ApiDiagrams.Text.Ranges
import ApiDiagrams.Text.Raw
import ApiDiagrams.Text.Sign
import ApiDiagrams.Text.Skeleton
import ApiDiagrams.Text.Utf8
import ApiDiagrams.Text.Width
import ApiDiagrams.Time.Calendar
import ApiDiagrams.Time.Moment
import ApiDiagrams.Time.Span
import ApiDiagrams.Toml.Document
import ApiDiagrams.Toml.Read
import ApiDiagrams.Toml.Scalar
import ApiDiagrams.Toml.Value
import ApiDiagrams.Tool.Command
import ApiDiagrams.Tool.Script
import ApiDiagrams.Tool.Shell
import ApiDiagrams.Tool.Start
import ApiDiagrams.Tool.Token
import ApiDiagrams.Tool.Utility
import ApiDiagrams.Validation
import ApiDiagrams.Watch
import ApiDiagrams.World
import ApiDiagrams.Yaml.Node
import ApiDiagrams.Yaml.Read
import ApiDiagrams.Yaml.Resolve
import ApiDiagrams.Yaml.Scalar
import ApiDiagrams.Yaml.Source
import ApiDiagrams.Yaml.Token
import ApiDiagrams.Proofs.Dot.Allocation
import ApiDiagrams.Proofs.Dot.Scanning
import ApiDiagrams.Proofs.Dot.Statements
import ApiDiagrams.Proofs.Dot.RoundTrip
import ApiDiagrams.Proofs.Index.Table
import ApiDiagrams.Proofs.Model.Building
import ApiDiagrams.Proofs.Model.Calls
import ApiDiagrams.Proofs.Model.Consistency
import ApiDiagrams.Proofs.Model.Order
import ApiDiagrams.Proofs.Files.Path
import ApiDiagrams.Proofs.Files.Tree
import ApiDiagrams.Proofs.Run.Planning
import ApiDiagrams.Proofs.Run.Names
import ApiDiagrams.Proofs.Run.Writing
import ApiDiagrams.Proofs.Run.Outcome
import ApiDiagrams.Proofs.Run.Validity
import ApiDiagrams.Proofs.Run.Files
import ApiDiagrams.Proofs.Run.Frame
import ApiDiagrams.Proofs.Run.Trace
import ApiDiagrams.Proofs.Diagram.Plan
import ApiDiagrams.Proofs.Diagram.Reach
import ApiDiagrams.Proofs.Diagram.Addresses
import ApiDiagrams.Proofs.Diagram.Enumeration
import ApiDiagrams.Proofs.Diagram.Shuffling
import ApiDiagrams.Proofs.Diagram.Nesting
import ApiDiagrams.Proofs.Diagram.Icons
import ApiDiagrams.Proofs.Text.Ascii
import ApiDiagrams.Proofs.Text.Base64
import ApiDiagrams.Proofs.Time.Moment
import ApiDiagrams.Proofs.Json.Strings
import ApiDiagrams.Proofs.Files.Removal
import ApiDiagrams.Proofs.Cache.Entry
import ApiDiagrams.Proofs.Cache.Files
import ApiDiagrams.Proofs.Cache.History
import ApiDiagrams.Proofs.Cache.Keys
import ApiDiagrams.Proofs.Render.Cached
import ApiDiagrams.Proofs.Diagram.Picture
import ApiDiagrams.Proofs.Diagram.Trees
import ApiDiagrams.Proofs.Diagram.Calls
import ApiDiagrams.Proofs.Render.Files
import ApiDiagrams.Proofs.Index.Chains
import ApiDiagrams.Proofs.Diagram.Imports
import ApiDiagrams.Proofs.Cache.Digest
import ApiDiagrams.Proofs.Files.Rooted
import ApiDiagrams.Proofs.Cache.Clearing
import ApiDiagrams.Proofs.Diagram.Markup
import ApiDiagrams.Proofs.Diagram.Layout
import ApiDiagrams.Proofs.Diagram.Labels
import ApiDiagrams.Proofs.Index.Pages
import ApiDiagrams.Proofs.Cache.Attempts
import ApiDiagrams.Proofs.Render.Chain
import ApiDiagrams.Proofs.Dot.Headers
import ApiDiagrams.Proofs.Dot.Labels
import ApiDiagrams.Proofs.Dot.Fragments
import ApiDiagrams.Proofs.Dot.Sharing
import ApiDiagrams.Proofs.Config.Check
import ApiDiagrams.Proofs.Config.Load
import ApiDiagrams.Proofs.Run.Directive
import ApiDiagrams.Proofs.CommandLine.Directives
import ApiDiagrams.Proofs.CommandLine.Rebuilding
import ApiDiagrams.Proofs.Files.Extension
import ApiDiagrams.Proofs.Render.Frame
import ApiDiagrams.Proofs.CommandLine.RenderFile
import ApiDiagrams.Proofs.Run.Course
import ApiDiagrams.Proofs.Display.Share
import ApiDiagrams.Proofs.Fault
import ApiDiagrams.Proofs.Preview
import ApiDiagrams.Proofs.Model.Keys
import ApiDiagrams.Proofs.Run.Targets
import ApiDiagrams.Proofs.Dot.Escaping
import ApiDiagrams.Proofs.Model.Aliases
import ApiDiagrams.Proofs.Render.Version
import ApiDiagrams.Proofs.Index.History
