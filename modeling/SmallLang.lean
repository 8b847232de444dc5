import SmallLang.Main
import SmallLang.Proofs.Command.Modes
import SmallLang.Proofs.Config.Scan
import SmallLang.Proofs.Console.Requests
import SmallLang.Proofs.Console.Values
import SmallLang.Proofs.Diagnostic.Places
import SmallLang.Proofs.Errors.Source
import SmallLang.Proofs.Eval.Cutoff
import SmallLang.Proofs.Eval.Isolation
import SmallLang.Proofs.Eval.Overload
import SmallLang.Proofs.Eval.Returns
import SmallLang.Proofs.Eval.Strategies
import SmallLang.Proofs.Files.Loading
import SmallLang.Proofs.Number.Bitwise
import SmallLang.Proofs.Number.Shortest
import SmallLang.Proofs.Parse.Joining
import SmallLang.Proofs.Print.RoundTrip
import SmallLang.Proofs.Program.Order
import SmallLang.Proofs.Scope.Refinement
import SmallLang.Proofs.Tree.Selection
import SmallLang.Proofs.Typing.Agreement
import SmallLang.Proofs.Typing.Names
import SmallLang.Proofs.Typing.Soundness
import SmallLang.Scope.Transcript
