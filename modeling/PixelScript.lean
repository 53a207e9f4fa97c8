import PixelScript.Canvas
import PixelScript.Canvas.Picture
import PixelScript.Checked
import PixelScript.Command
import PixelScript.Command.Coverage
import PixelScript.Command.Effect
import PixelScript.Command.Sequence
import PixelScript.Command.Spelling
import PixelScript.Command.Transpose
import PixelScript.CommandLine
import PixelScript.Coordinate
import PixelScript.Coordinate.Refused
import PixelScript.Fallible
import PixelScript.Interpreter
import PixelScript.Interpreter.Accounts
import PixelScript.Interpreter.Cut
import PixelScript.Interpreter.Pictures
import PixelScript.Line
import PixelScript.Line.Faults
import PixelScript.Line.Rejected
import PixelScript.Log
import PixelScript.Log.File
import PixelScript.Log.Formats
import PixelScript.Log.Order
import PixelScript.Main
import PixelScript.Output
import PixelScript.Path
import PixelScript.Path.Ancestors
import PixelScript.Program
import PixelScript.Program.Ending
import PixelScript.Proofs.Checking
import PixelScript.Proofs.ColorTokens
import PixelScript.Proofs.Discovery
import PixelScript.Proofs.Drawing
import PixelScript.Proofs.Faults
import PixelScript.Proofs.Grammar
import PixelScript.Proofs.Interpretation
import PixelScript.Proofs.Logs
import PixelScript.Proofs.Pictures
import PixelScript.Proofs.Reading
import PixelScript.Proofs.Refinement
import PixelScript.Proofs.Running
import PixelScript.Proofs.UnreadableScript
import PixelScript.Script
import PixelScript.Script.File
import PixelScript.Script.Reading
import PixelScript.Script.Returns
import PixelScript.Script.Unreadable
import PixelScript.Settings
import PixelScript.Settings.Nearest
import PixelScript.Settings.Stated
import PixelScript.Storage
import PixelScript.Storage.Frame
import PixelScript.Storage.Tree
import PixelScript.Text.Blank
import PixelScript.Text.Casing
import PixelScript.Text.Casing.Forms
import PixelScript.Text.Json
import PixelScript.Text.Lines
import PixelScript.Text.Quoted
import PixelScript.Text.Runs
import PixelScript.Text.Utf8
import PixelScript.Toml.Document
import PixelScript.Toml.Token
