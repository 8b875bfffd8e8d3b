import Dis.Debugger.CommandLine
import Dis.Debugger.Completion
import Dis.Debugger.Details
import Dis.Interpreter
import Dis.Main
import Dis.Proofs.Accounting
import Dis.Proofs.Answers
import Dis.Proofs.Arguments
import Dis.Proofs.Base64Bits
import Dis.Proofs.Batches
import Dis.Proofs.CanonicalHex
import Dis.Proofs.CheckedCycle
import Dis.Proofs.Cycle
import Dis.Proofs.DigitArithmetic
import Dis.Proofs.Digits
import Dis.Proofs.Echo
import Dis.Proofs.FaultFree
import Dis.Proofs.Feeding
import Dis.Proofs.FileTree
import Dis.Proofs.FirstOffender
import Dis.Proofs.Grammar
import Dis.Proofs.Histories
import Dis.Proofs.HostSession
import Dis.Proofs.HostWrites
import Dis.Proofs.InterpreterOutput
import Dis.Proofs.JsonReplies
import Dis.Proofs.Numerals
import Dis.Proofs.Payloads
import Dis.Proofs.PlainWords
import Dis.Proofs.RefusedInput
import Dis.Proofs.Retention
import Dis.Proofs.Sessions
import Dis.Proofs.Soundness
import Dis.Proofs.SourceLine
import Dis.Proofs.Spellings
import Dis.Proofs.StepAndRun
import Dis.Proofs.Strikes
import Dis.Proofs.StruckCommands
import Dis.Proofs.Traces
import Dis.Proofs.Traffic
import Dis.Proofs.Transparency
import Dis.Proofs.TypedLines
import Dis.Proofs.WellFormedUtf8
import Dis.Proofs.Words
import Dis.Proofs.DigitTexts
import Dis.Proofs.Literals
import Dis.Proofs.ParseErrors
import Dis.Proofs.ListedAddresses
import Dis.Proofs.WordsUnderWay
import Dis.Proofs.Completions
