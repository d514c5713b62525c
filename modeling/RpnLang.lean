import RpnLang.Symbol
import RpnLang.Token
import RpnLang.Automaton
import RpnLang.Decimal.Shortest
import RpnLang.Decimal.Layout
import RpnLang.Decimal.Read
import RpnLang.Text.Blank
import RpnLang.Text.Unprintable
import RpnLang.Text.Quoted
import RpnLang.Value
import RpnLang.Tables
import RpnLang.Lexer
import RpnLang.Brackets
import RpnLang.Code
import RpnLang.Parser.State
import RpnLang.Parser.Expr
import RpnLang.Parser.Program
import RpnLang.Input
import RpnLang.Arith
import RpnLang.Machine
import RpnLang.Pipeline
import RpnLang.CommandLine
import RpnLang.Main
import RpnLang.Proofs.Derivation
import RpnLang.Proofs.Tables
import RpnLang.Proofs.ParseSteps
import RpnLang.Proofs.ParseExpr
import RpnLang.Proofs.ParseProgram
import RpnLang.Proofs.Evaluation
import RpnLang.Proofs.Simulation
import RpnLang.Proofs.LexedRecords
import RpnLang.Proofs.StackCode
import RpnLang.Proofs.RunSafety
import RpnLang.Proofs.Lexical
import RpnLang.Proofs.AutomatonPaths
import RpnLang.Proofs.LexerSteps
import RpnLang.Proofs.TokenTables
import RpnLang.Proofs.LongestMatch
import RpnLang.Proofs.ParseInvariant
import RpnLang.Proofs.TraceLog
import RpnLang.Proofs.ValueText
import RpnLang.Proofs.ConstantKeys
import RpnLang.Proofs.RunConstants
import RpnLang.Proofs.BracketStack
import RpnLang.Proofs.ParseComplete
import RpnLang.Proofs.RunReport
import RpnLang.Proofs.Rollback
import RpnLang.Proofs.TableFrames
import RpnLang.Proofs.MachineTables
import RpnLang.Proofs.LexFailure
import RpnLang.Proofs.Arithmetic
import RpnLang.Proofs.BracketWords
import RpnLang.Proofs.ReadBack
import RpnLang.Proofs.Declarations
import RpnLang.Proofs.ParseTermination
import RpnLang.Proofs.BracketCalls
