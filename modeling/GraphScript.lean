import GraphScript.Main
import GraphScript.Program.OfTree
import GraphScript.Proofs.Folders.Contiguity
import GraphScript.Proofs.Script.Literals
import GraphScript.Proofs.Script.Words
import GraphScript.Proofs.Script.Blocks
import GraphScript.Proofs.Script.Groups
import GraphScript.Proofs.Script.Items
import GraphScript.Proofs.Script.Settings
import GraphScript.Proofs.Script.Lines
import GraphScript.Proofs.State.Flags
import GraphScript.Proofs.Script.Translated
import GraphScript.Proofs.Elision.Defaults
import GraphScript.Proofs.Elision.Items
import GraphScript.Proofs.Elision.Documents
import GraphScript.Proofs.Documents.Declared
import GraphScript.Proofs.Documents.Optional
import GraphScript.Proofs.Documents.Shape
import GraphScript.Proofs.Records.Construction
import GraphScript.Proofs.CommandLine.Routes
import GraphScript.Proofs.Documents.Toggles
import GraphScript.Proofs.Documents.Dumped
import GraphScript.Proofs.Script.Scanning
import GraphScript.Proofs.Script.Typed
import GraphScript.Proofs.State.Order
import GraphScript.Proofs.Script.Content
import GraphScript.Proofs.Script.Outside
import GraphScript.Proofs.State.Spelling
import GraphScript.Proofs.Number.Printing
import GraphScript.Proofs.Documents.Printed
import GraphScript.Proofs.Documents.Indented
import GraphScript.Proofs.CommandLine.Refusals
import GraphScript.Proofs.Disk.Suffixes
import GraphScript.Proofs.CommandLine.Beside
import GraphScript.Proofs.State.Agreement
import GraphScript.Proofs.Documents.Agreement
import GraphScript.Proofs.Folders.Log
