import PowerTest.Config.ToYaml
import PowerTest.Main
import PowerTest.Process.Rehearsed
import PowerTest.Proofs.Pipeline.Trace
import PowerTest.Proofs.Timing.Verdict
import PowerTest.Proofs.Store.Directory
import PowerTest.Proofs.Conversion.Effect
import PowerTest.Proofs.Conversion.Jobs
import PowerTest.Proofs.Pipeline.Conservation
import PowerTest.Proofs.Store.Growth
import PowerTest.Proofs.Text.Utf8
import PowerTest.Proofs.Store.Drawer
import PowerTest.Proofs.Pipeline.Success
import PowerTest.Proofs.Pipeline.Contents
import PowerTest.Proofs.Pipeline.Delivery
import PowerTest.Proofs.Pipeline.TwoRuns
import PowerTest.Proofs.Pipeline.OutputDirectory
import PowerTest.Proofs.Pipeline.Staging
import PowerTest.Proofs.Pipeline.Interleaving
import PowerTest.Proofs.Pipeline.RunDirectories
import PowerTest.Proofs.Store.Alteration
import PowerTest.Proofs.Number.Positive
import PowerTest.Proofs.Pipeline.Rescoring
import PowerTest.Proofs.Pipeline.OwnOutput
import PowerTest.Proofs.Pipeline.Restaging
import PowerTest.Proofs.Pipeline.Rerun
import PowerTest.Proofs.CommandLine.Activity
import PowerTest.Proofs.CommandLine.Endings
import PowerTest.Proofs.CommandLine.ScaleFactor
import PowerTest.Proofs.Fragments
import PowerTest.Proofs.Store.Opening
import PowerTest.Proofs.Store.Separation
import PowerTest.Proofs.CommandLine.Generating
import PowerTest.Proofs.Conversion.Reader
import PowerTest.Proofs.Conversion.Outcome
import PowerTest.Proofs.Conversion.Insertions
import PowerTest.Proofs.Conversion.Statements
import PowerTest.Proofs.Conversion.Delimited
import PowerTest.Proofs.Conversion.Fields
import PowerTest.Proofs.Conversion.Deletions
import PowerTest.Proofs.Pipeline.Splitting
import PowerTest.Proofs.Pipeline.QueryGeneration
import PowerTest.Proofs.CommandLine.Rejections
import PowerTest.Proofs.Config.Writing
