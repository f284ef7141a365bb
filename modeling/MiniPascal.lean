import MiniPascal.Decimal.SignedReal
import MiniPascal.Main
import MiniPascal.Text.Template
import MiniPascal.Proofs.Compiler.Capacity
import MiniPascal.Proofs.ConstantCells
import MiniPascal.Proofs.Machine.Discipline
import MiniPascal.Proofs.Machine.FiniteReals
import MiniPascal.Proofs.Machine.Twins
import MiniPascal.Proofs.Simulation.ForLoops
import MiniPascal.Proofs.TypedCode
import MiniPascal.Proofs.Lexing.Spacing
import MiniPascal.Proofs.LetterCase
import MiniPascal.Proofs.LineReading
import MiniPascal.Proofs.Observation
import MiniPascal.Proofs.ProgramName
import MiniPascal.Proofs.Verdicts
import MiniPascal.Proofs.BuiltInPrograms
import MiniPascal.Proofs.IntegerRequests
import MiniPascal.Proofs.LoggedBytes
import MiniPascal.Proofs.TableCalls
import MiniPascal.Proofs.ClosedBlocks
import MiniPascal.Proofs.LineSplitting
import MiniPascal.Proofs.NameLookups
import MiniPascal.Proofs.OutputRouting
