import RenderFarm.Farm

/-!
What the command line tells before and after a run.
-/

namespace RenderFarm.Report

/-- The text of a list of device names. -/
def namesText (names : List String) : String :=
  "[" ++ ", ".intercalate (names.map fun n => String.ofList (LogValue.quoted n).chars) ++ "]"

/-- What is told before a run: problems with the settings, the devices, and the template. -/
def opening (c : Config) (problems : List ConfigError) : List LogEvent :=
  problems.map (fun e => LogEvent.warning e.message []) ++
    [.info "Starting dreamfactory"
      [("devices", .shown (namesText c.devices)), ("start_port", .number c.startPort.toNat),
        ("sd_location", .shown c.backendDir.text)],
      match c.promptFile with
      | some path => .info "Prompt file selected" [("template", .shown path.text)]
      | none => .warning "No prompt file given; only capability discovery will run" []]

/-- What is told after a run. -/
def closing (c : Config) : Except RunError RunSummary → List LogEvent
  | .ok s =>
    [.info "Run complete"
      [("jobs_done", .number s.jobsDone), ("jobs_failed", .number s.jobsFailed),
        ("loops", .number s.loops.toNat)]]
  | .error .noDevices =>
    [.error "No render device started; check the per-device error logs" [("log_dir", .shown c.logDir.text)]]
  | .error .closed => [.error RunError.closed.message []]

/-- The exit code of a run. -/
def exitCode : Except RunError RunSummary → UInt32
  | .ok _ => 0
  | .error _ => 1

end RenderFarm.Report
