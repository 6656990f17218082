import TinyGen.ParseTree.Events
import TinyGen.Main
import TinyGen.Proofs.Lowering
import TinyGen.Proofs.Meaning
import TinyGen.Proofs.LoweringMeaning
import TinyGen.Proofs.Registers
import TinyGen.Proofs.SelectionMeaning
import TinyGen.Proofs.ScopeStack
import TinyGen.Proofs.Walk
import TinyGen.Proofs.Events
import TinyGen.Proofs.ScopeTable
import TinyGen.Proofs.Bodies
import TinyGen.Proofs.Declarations
import TinyGen.Proofs.Reading
import TinyGen.Proofs.LexicalScoping
import TinyGen.Proofs.Uses
import TinyGen.Proofs.TableRun
import TinyGen.Proofs.NamesInPlace
import TinyGen.Proofs.NoMisuse
import TinyGen.Proofs.Temporaries
import TinyGen.Proofs.RegisterOrder
import TinyGen.Proofs.Brackets
import TinyGen.Proofs.Delivery
import TinyGen.Proofs.Mentions
import TinyGen.Proofs.Storage
import TinyGen.Proofs.OutputFile
import TinyGen.Proofs.Writing
import TinyGen.Proofs.Operands
import TinyGen.Proofs.PrintedCode
import TinyGen.Proofs.JsonTexts
import TinyGen.Proofs.Readers
import TinyGen.Proofs.Decoding
import TinyGen.Proofs.MisplacedStrings
import TinyGen.Proofs.Relabelling
import TinyGen.Proofs.ExpressionTrees
import TinyGen.Proofs.Renaming
import TinyGen.Proofs.RenamedCompilation
import TinyGen.Proofs.AnyEvents
import TinyGen.Proofs.RefusedEvents
import TinyGen.Proofs.PostOrder
import TinyGen.Proofs.Numerals
