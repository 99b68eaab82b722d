import GasAdapter.Library.Transducer
import GasAdapter.Library.Script
import GasAdapter.Library.Pathname
import GasAdapter.Library.LexicalNormal
import GasAdapter.Library.ArgvRules
import GasAdapter.Library.OptionList
import GasAdapter.Library.FileCommands
import GasAdapter.Model.Platform
import GasAdapter.Model.CommandLine
import GasAdapter.Model.Process
import GasAdapter.Model.Outside
import GasAdapter.Model.LlvmMcRunner
import GasAdapter.Model.Gas
import GasAdapter.Model.ProcessPosix
import GasAdapter.Model.Children
import GasAdapter.Model.Reporting
import GasAdapter.Model.Package
import GasAdapter.Spec.Reading
import GasAdapter.Spec.Spelling
import GasAdapter.Spec.Settings
import GasAdapter.Spec.Plan
import GasAdapter.Spec.McArguments
import GasAdapter.Spec.Tasks
import GasAdapter.Spec.Toolchain
import GasAdapter.Spec.Operations
import GasAdapter.Spec.Narration
import GasAdapter.Proofs.CommandLine
import GasAdapter.Proofs.LlvmMcRunner
import GasAdapter.Proofs.Executables
import GasAdapter.Proofs.Gas
import GasAdapter.Proofs.Accepted
import GasAdapter.Proofs.Course
import GasAdapter.Proofs.Operations
import GasAdapter.Proofs.McArguments
import GasAdapter.Proofs.Children
import GasAdapter.Proofs.Reporting
import GasAdapter.Soundness.ProcessSequence
import GasAdapter.Soundness.ObjectPaths
import GasAdapter.Soundness.ExitCodes
import GasAdapter.Soundness.CommandLine
import GasAdapter.Soundness.Projection
import GasAdapter.Soundness.WindowsCommandLine
import GasAdapter.Soundness.ChildStatus
import GasAdapter.Soundness.ParserLoop
import GasAdapter.Soundness.OptionStore
import GasAdapter.Soundness.StartedProcesses
import GasAdapter.Soundness.Features
import GasAdapter.Soundness.Translation
import GasAdapter.Soundness.Emulation
import GasAdapter.Soundness.OutputFiles
import GasAdapter.Soundness.DryRun
import GasAdapter.Soundness.Executables
import GasAdapter.Soundness.Reporting
import GasAdapter.Soundness.ExitStatus
import GasAdapter.Soundness.WindowsPaths
import GasAdapter.Soundness.Package
