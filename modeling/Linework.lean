import Linework.Text
import Linework.Number.Binary64
import Linework.Number.Shortest
import Linework.Number.Layout
import Linework.Number.Literal
import Linework.Json.Quoted
import Linework.Json.Basic
import Linework.Json.Printer
import Linework.Json.Parser
import Linework.Diagnostic
import Linework.Failure
import Linework.Script
import Linework.Storage.Calendar
import Linework.Canvas.Viewport
import Linework.Canvas.DrawOp
import Linework.Argument.Value
import Linework.Argument.Param
import Linework.Argument.Check
import Linework.Reference.Picture
import Linework.Reference.Cache
import Linework.Command.Action
import Linework.Command.Basic
import Linework.Command.Registry
import Linework.Command.Builtin
import Linework.Command.Catalog
import Linework.Pass.Report
import Linework.Pass.Run
import Linework.Storage.Path
import Linework.Storage.FileSystem
import Linework.Storage.FileProgram
import Linework.Storage.Document
import Linework.Storage.Settings
import Linework.Reference.Loader
import Linework.PictureFile.Fault
import Linework.PictureFile.Bytes
import Linework.PictureFile.Bmp
import Linework.PictureFile.Lzw
import Linework.PictureFile.Gif
import Linework.PictureFile.Deflate
import Linework.PictureFile.Png
import Linework.PictureFile.Format
import Linework.Session.Basic
import Linework.CommandLine.Grammar
import Linework.CommandLine.Request
import Linework.CommandLine.Execute
import Linework.Main
import Linework.Proofs.Text.Cutting
import Linework.Proofs.Reference.Tables
import Linework.Proofs.Reference.Lifecycle
import Linework.Proofs.Pass.Deed
import Linework.Proofs.Pass.Hint
import Linework.Proofs.Pass.Pictures
import Linework.Proofs.Reference.Drift
import Linework.Proofs.Reference.Arrivals
import Linework.Proofs.Reference.Task
import Linework.Proofs.Pass.Frame
import Linework.Proofs.Session.Events
import Linework.Proofs.Session.Steady
import Linework.Proofs.Session.Settle
import Linework.Proofs.Session.Scene
import Linework.Proofs.Session.Waiting
import Linework.Proofs.Session.Interleaved
import Linework.Proofs.Session.Fetches
import Linework.Proofs.Reference.Ahead
import Linework.Proofs.Session.Schedule
import Linework.Proofs.Pass.Alignment
import Linework.Proofs.Pass.Composition
import Linework.Proofs.Session.Current
import Linework.Proofs.Reference.InHand
import Linework.Proofs.Session.Play
import Linework.Proofs.Session.Undisturbed
import Linework.Proofs.Session.Sightings
import Linework.Proofs.Pass.Sketch
import Linework.Proofs.Number.NegativeZero
import Linework.Proofs.Pass.Decomposition
import Linework.Proofs.Pass.Interference
import Linework.Proofs.Storage.Nodes
import Linework.Proofs.Storage.Reach
import Linework.Proofs.Storage.Replacement
import Linework.Proofs.Argument.Checked
import Linework.Proofs.Argument.Problems
import Linework.Proofs.Command.Accepted
import Linework.Proofs.Command.Registration
import Linework.Proofs.Command.Calling
import Linework.Proofs.Pass.Importing
import Linework.Proofs.Session.Importing
import Linework.Proofs.Command.Fitting
import Linework.Proofs.Pass.Halting
import Linework.Proofs.Pass.Fetching
import Linework.Proofs.Pass.Words
import Linework.Proofs.Json.Quoting
import Linework.Proofs.Json.Reading
import Linework.Proofs.Storage.Saving
import Linework.Proofs.Storage.Directories
import Linework.Proofs.Storage.SettingsText
import Linework.Proofs.Storage.SettingsFile
import Linework.Proofs.Storage.SettingsEdits
import Linework.Proofs.Storage.Rooted
import Linework.Proofs.Storage.Sparing
import Linework.Proofs.Storage.Exchange
import Linework.Proofs.Session.Persistence
import Linework.Proofs.CommandLine.Remembering
import Linework.Proofs.CommandLine.Documents
import Linework.Proofs.Argument.Bindings
import Linework.Proofs.Number.Grammar
import Linework.Proofs.Number.Rounding
import Linework.Proofs.Number.RadixDigits
import Linework.Proofs.Number.Bits
import Linework.Proofs.Number.Interval
import Linework.Proofs.Number.Grid
import Linework.Proofs.Number.Shortest
import Linework.Proofs.Number.ReadingBack
import Linework.Proofs.Number.Spelling
import Linework.Proofs.Pass.Positions
import Linework.Proofs.Pass.OneLine
import Linework.Proofs.Pass.Listing
import Linework.Proofs.Json.Fields
import Linework.Proofs.Argument.Exported
import Linework.Proofs.Command.Schema
import Linework.Proofs.Storage.Calendar
import Linework.Proofs.Storage.Naming
