import PowerTest.Json.Printer
import PowerTest.Timing.Log

/-!
# Power reports

The result of one benchmark: the samples of its log, their geometric mean and the power metric.
-/

namespace PowerTest.Timing

/-- The result of one benchmark. -/
structure Report where
  logPath : String
  scaleFactor : Float
  samples : List Sample
  geometricMean : Float
  power : Float

namespace Report

/-- The report on samples that have been read. -/
def ofSamples (logPath : String) (samples : List Sample) (scaleFactor : Float) :
    Except Failure Report :=
  (Timing.geometricMean samples).map fun mean =>
    { logPath, scaleFactor, samples, geometricMean := mean, power := powerOfMean mean scaleFactor }

/-- The report on the log that a path leads to. -/
def ofLog (store : Store) (logPath : String) (scaleFactor : Float) : Except Failure Report :=
  match readLog store logPath with
  | .error failure => .error failure
  | .ok samples => ofSamples logPath samples scaleFactor

/-- A report on one line. -/
def summary (report : Report) : String :=
  "TPC-H Power = " ++ Number.fixed 2 report.power ++
    " | SF: " ++ Number.plain.render report.scaleFactor ++
    " | Samples: " ++ Text.decimal report.samples.length ++
    " | Geomean: " ++ Number.fixed 3 report.geometricMean ++
    "s | Total: " ++ Number.fixed 1 (total report.samples) ++ "s"

/-- A report as a JSON value. -/
def toJson (report : Report) : Json :=
  .record
    [("log_path", .text report.logPath),
     ("scale_factor", .ofFloat report.scaleFactor),
     ("samples", .array (report.samples.map fun sample =>
       .record [("label", .text sample.label), ("elapsed_ms", .ofFloat sample.elapsed)])),
     ("geometric_mean_secs", .ofFloat report.geometricMean),
     ("power", .ofFloat report.power)]

/-- Write a report to a file. -/
def save (report : Report) (store : Store) (path : String) : Except Fault Store :=
  store.write path (Text.encode (Json.pretty report.toJson))

end Report

end PowerTest.Timing
