import PowerTest.CommandLine.Run
import PowerTest.Config.Validation
import PowerTest.Proofs.Config.Sample
import PowerTest.Proofs.Store.Opening

/-!
# Generating the sample configuration

The program writes the sample configuration to any file, and it reads a file in the format that the
file's name asks for. What it loads from a file that it has generated is the standard configuration,
which it accepts, unless the name asks for JSON: `load_generated`.
-/

namespace PowerTest.CommandLine

variable {arguments : List String} {now : Int} {store : Store} {request : Request} {path : String}

theorem use_eq_generateTask (asked : Request.ofArguments arguments = .ok request)
    (task : request.task = .generateConfig path) (now : Int) (store : Store) :
    use arguments now store = generateTask path store := by
  simp only [use, asked, Request.carryOut, task]

/-- A sample that is generated is written in full, whatever the file held. -/
theorem readText_generateTask (done : (generateTask path store).1.status = 0) :
    (generateTask path store).2.readText path = .ok sampleConfig := by
  unfold generateTask at done ⊢
  cases written : writeSampleConfig store path with
  | ok after => exact Store.readText_of_write written
  | error fault =>
    rw [written] at done
    cases done

/-- The sample is loaded as the standard configuration, unless the name asks for JSON. -/
theorem load_of_readText (sample : store.readText path = .ok sampleConfig) :
    Config.load store (some path) =
      if Path.extension? path = some "json" then .error ⟨path, .notJson⟩ else .ok .standard := by
  simp only [Config.load, Config.loadFrom, Config.ofFile, sample, Config.ofText_sampleConfig]
  by_cases json : Path.extension? path = some "json"
  · simp only [json, if_true]
  · simp only [json, if_false]

/-- The program loads the sample that it has generated as the standard configuration and accepts it,
unless the name of the file asks for JSON. -/
theorem load_generated (asked : Request.ofArguments arguments = .ok request)
    (task : request.task = .generateConfig path)
    (done : (use arguments now store).1.status = 0) :
    Config.load (use arguments now store).2 (some path) =
        (if Path.extension? path = some "json" then .error ⟨path, .notJson⟩ else .ok .standard) ∧
      Config.standard.validate = .ok () := by
  rw [use_eq_generateTask asked task] at done ⊢
  exact ⟨load_of_readText (readText_generateTask done), rfl⟩

/-- A store with a file that holds no configuration. -/
def staleFile : Store where
  entries := [(["w"], .directory), (["w", "sample.yml"], .file false (Text.encode "generator: 1"))]
  workingDirectory := ["w"]

theorem load_generated_stale :
    (use ["generate-config", "-o", "sample.yml"] 0 staleFile).1.status = 0 ∧
      Config.load (use ["generate-config", "-o", "sample.yml"] 0 staleFile).2 (some "sample.yml") =
        .ok .standard := by
  have asked : Request.ofArguments ["generate-config", "-o", "sample.yml"] =
    .ok ⟨none, none, none, .generateConfig "sample.yml"⟩ := by with_unfolding_all rfl
  have done : (use ["generate-config", "-o", "sample.yml"] 0 staleFile).1.status = 0 := by
    decide +kernel
  have other : Path.extension? "sample.yml" ≠ some "json" := by decide +kernel
  have loaded := (load_generated asked rfl done).1
  rw [if_neg other] at loaded
  exact ⟨done, loaded⟩

/-- A sample that is generated under a name that asks for JSON cannot be loaded. -/
theorem load_generated_json :
    (use ["generate-config", "-o", "config.json"] 0 staleFile).1 =
        .success "Generated sample configuration at: config.json\n" ∧
      Config.load (use ["generate-config", "-o", "config.json"] 0 staleFile).2
          (some "config.json") = .error ⟨"config.json", .notJson⟩ := by
  have asked : Request.ofArguments ["generate-config", "-o", "config.json"] =
    .ok ⟨none, none, none, .generateConfig "config.json"⟩ := by with_unfolding_all rfl
  have done : (generateTask "config.json" staleFile).1 =
      .success "Generated sample configuration at: config.json\n" := by
    decide +kernel
  have json : Path.extension? "config.json" = some "json" := by decide +kernel
  have loaded := load_of_readText (readText_generateTask (congrArg Outcome.status done))
  rw [if_pos json] at loaded
  rw [use_eq_generateTask asked rfl]
  exact ⟨done, loaded⟩

end PowerTest.CommandLine
