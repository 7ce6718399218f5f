import ScriptLang.Benchmark.Report
import ScriptLang.Benchmark.Workload
import ScriptLang.Host
import ScriptLang.Main
import ScriptLang.Proofs.Alignment
import ScriptLang.Proofs.Choosing
import ScriptLang.Proofs.Combining
import ScriptLang.Proofs.Concatenation
import ScriptLang.Proofs.Constructors
import ScriptLang.Proofs.Currying
import ScriptLang.Proofs.Flattening
import ScriptLang.Proofs.Groups
import ScriptLang.Proofs.KeptTokens
import ScriptLang.Proofs.Limits
import ScriptLang.Proofs.Memoizing
import ScriptLang.Proofs.Operands
import ScriptLang.Proofs.Overloads
import ScriptLang.Proofs.PackageDirectory
import ScriptLang.Proofs.ParsingEnds
import ScriptLang.Proofs.Plateaus
import ScriptLang.Proofs.Receivers
import ScriptLang.Proofs.RequestMethods
import ScriptLang.Proofs.ServerAddresses
import ScriptLang.Proofs.SharedAttributes
import ScriptLang.Proofs.StaticMembers
import ScriptLang.Proofs.Templates
import ScriptLang.Proofs.TokenPlaces
import ScriptLang.Proofs.Waiting
import ScriptLang.Proofs.Widgets
