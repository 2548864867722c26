import PowerTest.Proofs.CommandLine.Endings
import PowerTest.Proofs.Number.Positive
import PowerTest.Proofs.Pipeline.Rescoring

/-!
# What the scale factor comes to

The scale factor of a use of the program is the one among its arguments, or else the configured one.
`activity_scaled` follows it: a run hands it to the data generator and to its report, but is rejected
before it does anything if the scale factor is not positive. Scoring a log does not look at the
sign, and a run takes an infinite scale factor for a positive one (`scores_withZero`,
`accepts_infinite`).
-/

namespace PowerTest

open Steps

namespace Pipeline

variable {Memory : Type}

end Pipeline

namespace CommandLine

/-- A store with a log to score. -/
def loggedStore : Store where
  entries := [(["w"], .directory), (["w", "log.txt"], .file false (Text.encode "log\nq1:1000\n"))]
  workingDirectory := ["w"]

/-- Scoring with the scale factor zero ends well, with a report. -/
theorem scores_withZero :
    (use ["score", "--scale-factor", "0", "-l", "log.txt"] 0 loggedStore).1.status = 0 ∧
      ((activity ["score", "--scale-factor", "0", "-l", "log.txt"] 0 loggedStore).report.map
        fun report => report.scaleFactor.toBits) = some 0 := by
  decide +kernel

/-- The standard configuration with a scale factor. -/
def scaledTo (scaleFactor : Float) : Config := { generator := { scaleFactor } }

/-- An infinite scale factor is accepted. -/
theorem accepts_infinite :
    (scaledTo (Number.signed false Number.infinityBits)).rejection? = none ∧
      (scaledTo (Number.signed false Number.infinityBits)).generator.scaleFactorArgument = "inf" := by
  decide +kernel

end CommandLine

end PowerTest
