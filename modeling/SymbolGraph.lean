import SymbolGraph.Line.Position
import SymbolGraph.Main
import SymbolGraph.Proofs.CommandLine.Outcome
import SymbolGraph.Proofs.Draft.Session
import SymbolGraph.Proofs.FileTree.Scan
import SymbolGraph.Proofs.Graph.Declaration
import SymbolGraph.Proofs.Graph.Extension
import SymbolGraph.Proofs.Graph.Inheritance
import SymbolGraph.Proofs.Graph.Outcome
import SymbolGraph.Proofs.Graph.Rearrangement
import SymbolGraph.Proofs.Graph.Schema
import SymbolGraph.Proofs.Line.BlockEnd
import SymbolGraph.Proofs.Line.LineEnd
import SymbolGraph.Proofs.Outline.Caller
import SymbolGraph.Proofs.Outline.Concatenation
import SymbolGraph.Proofs.Outline.Decoration
import SymbolGraph.Proofs.Outline.Docstring
import SymbolGraph.Proofs.Outline.DocstringOption
import SymbolGraph.Proofs.Outline.HeaderLine
import SymbolGraph.Proofs.Outline.ImportLine
import SymbolGraph.Proofs.Outline.Indentation
import SymbolGraph.Proofs.Outline.Snippet
import SymbolGraph.Proofs.Outline.Variable
import SymbolGraph.Proofs.Outline.WrittenDocstring
import SymbolGraph.Proofs.Record.Merge
import SymbolGraph.Proofs.Record.Query
import SymbolGraph.Proofs.Record.Reading
import SymbolGraph.Proofs.Record.Store
import SymbolGraph.Record.Source
