import DexListing.Proofs.Run.Scanning
import DexListing.Run.CommandLine

/-!
# The separator of a command line

A command line is scanned without the first `--` in it, wherever that stands. To see what this
changes, a run is cut at a point of its scan: what is left of it depends on what has been gathered
there and on the remaining tokens only (`CommandLine.run_append_of_ok`). The scan that leaves out
the separator and the one that does not come to the same point before it. There the one takes the
next token, and the other fails on the separator or takes it for the value of an option
(`CommandLine.execute_against_run`).
-/

set_option autoImplicit false

namespace DexListing.CommandLine

/-! ## Runs from a point of their scan on -/

/-- The end of a run whose arguments are not good. -/
def refused (f : Failure) (session : Session) : Report :=
  let session := session.cleanUp
  failed f "" (logged .warning session.events) session.host

/-- The rest of a run in which these tokens are still to be scanned. -/
def runFrom (registry : Registry) (scan : Scan) (session : Session) (tokens : List String) :
    Report :=
  match Scan.feedAll registry scan session tokens with
  | (.error f, _, session) => refused f session
  | (.ok (), scan, session) =>
    match scan.finish session.host with
    | .error f => refused f session
    | .ok (config, entries) =>
      dump registry config entries session.forgetEvents (logged .warning session.events)

/-- The rest of a run in which an option takes a value before these tokens. -/
def runWithValue (registry : Registry) (scan : Scan) (session : Session) (option : OptionName)
    (value : String) (tokens : List String) : Report :=
  match Scan.applyOption registry session.host scan option value with
  | .error f => refused f session
  | .ok scan => runFrom registry scan session tokens

section Runs

variable {registry : Registry} {host : Host} {scan : Scan} {session : Session}
  {before : List String}

/-- A run starts with nothing scanned. -/
theorem run_eq_runFrom (registry : Registry) (host : Host) (tokens : List String) :
    run registry host tokens = runFrom registry Scan.start (Session.start host) tokens := by
  unfold run runFrom Scan.parse
  rcases Scan.feedAll registry Scan.start (Session.start host) tokens with
    ⟨outcome, scan, session⟩
  cases outcome with
  | error f => rfl
  | ok =>
    dsimp only
    cases scan.finish session.host with
    | error f => rfl
    | ok result => rfl

/-- A run goes on from where the first tokens have brought its scan. -/
theorem run_append_of_ok
    (h : Scan.feedAll registry Scan.start (Session.start host) before = (.ok (), scan, session))
    (after : List String) :
    run registry host (before ++ after) = runFrom registry scan session after := by
  rw [run_eq_runFrom, runFrom, Scan.feedAll_append, h]
  rfl

/-- A run does not get past tokens that cannot be scanned. -/
theorem run_append_of_error {f : Failure}
    (h : Scan.feedAll registry Scan.start (Session.start host) before = (.error f, scan, session))
    (after : List String) : run registry host (before ++ after) = refused f session := by
  rw [run_eq_runFrom, runFrom, Scan.feedAll_append, h]

/-- The token after an option is its value. -/
theorem runFrom_value (hpending : scan.pending = none) (session : Session) (option : OptionName)
    (value : String) (tokens : List String) :
    runFrom registry { scan with pending := some option } session (value :: tokens) =
      runWithValue registry scan session option value tokens := by
  rw [runFrom, Scan.feedAll, Scan.feed_value hpending, runWithValue]
  cases Scan.applyOption registry session.host scan option value with
  | error f => rfl
  | ok next => rfl

/-- An option at the end of the tokens lacks its value. -/
theorem runFrom_nil_of_pending (scan : Scan) (session : Session) (option : OptionName) :
    runFrom registry { scan with pending := some option } session [] =
      refused (.configuration (.missingValue option.text)) session := rfl

/-- A dashed token that names no option is not an argument. -/
theorem runFrom_unsupported (hpending : scan.pending = none) (session : Session) {token : String}
    (hdashed : isDashed token = true) (hname : OptionName.ofText? token = none)
    (tokens : List String) :
    runFrom registry scan session (token :: tokens) =
      refused (.configuration (.unsupportedArgument token)) session := by
  rw [runFrom, Scan.feedAll, Scan.feed_dashed hpending session hdashed, hname]

end Runs

/-! ## Runs without their separator -/

/-- Without a separator among the tokens nothing is dropped. -/
theorem execute_of_notMem {tokens : List String} (h : "--" ∉ tokens) (host : Host) :
    execute host tokens = run Registry.standard host tokens := by
  unfold execute effectiveTokens
  rw [List.erase_of_not_mem h]

/-- Only the first separator is left out, and the other tokens keep their order. -/
theorem execute_append {before : List String} (h : "--" ∉ before) (host : Host)
    (after : List String) :
    execute host (before ++ after) = run Registry.standard host (before ++ after.erase "--") := by
  unfold execute effectiveTokens
  rw [List.erase_append_right after h]

/-- What a run makes of the first separator if it is called with it (the first report), and what it
would make of it if it were given the tokens as they stand (the second one). -/
inductive MeetsSeparator (host : Host) (before : List String) :
    List String → Report → Report → Prop
  /-- The scan ends before the separator. -/
  | unreached (after : List String) {f : Failure} {scan : Scan} {session : Session}
      (h : Scan.feedAll Registry.standard Scan.start (Session.start host) before =
        (.error f, scan, session)) :
      MeetsSeparator host before after (refused f session) (refused f session)
  /-- The separator stands where an argument begins, and is none itself. -/
  | argument (after : List String) {scan : Scan} {session : Session}
      (hpending : scan.pending = none)
      (h : Scan.feedAll Registry.standard Scan.start (Session.start host) before =
        (.ok (), scan, session)) :
      MeetsSeparator host before after (runFrom Registry.standard scan session after)
        (refused (.configuration (.unsupportedArgument "--")) session)
  /-- The separator stands for the value of an option, which then takes the next token. -/
  | value (next : String) (after : List String) {scan : Scan} {session : Session}
      {option : OptionName} (hpending : scan.pending = none)
      (h : Scan.feedAll Registry.standard Scan.start (Session.start host) before =
        (.ok (), { scan with pending := some option }, session)) :
      MeetsSeparator host before (next :: after)
        (runWithValue Registry.standard scan session option next after)
        (runWithValue Registry.standard scan session option "--" (next :: after))
  /-- The separator stands for the value of an option, which then lacks one. -/
  | lastValue {scan : Scan} {session : Session} {option : OptionName}
      (hpending : scan.pending = none)
      (h : Scan.feedAll Registry.standard Scan.start (Session.start host) before =
        (.ok (), { scan with pending := some option }, session)) :
      MeetsSeparator host before [] (refused (.configuration (.missingValue option.text)) session)
        (runWithValue Registry.standard scan session option "--" [])

/-- A separator that stands for the value of an option. -/
theorem meetsSeparator_of_pending {host : Host} {before : List String} (scan : Scan)
    {session : Session} {option : OptionName} (hpending : scan.pending = none)
    (h : Scan.feedAll Registry.standard Scan.start (Session.start host) before =
      (.ok (), { scan with pending := some option }, session)) (after : List String) :
    MeetsSeparator host before after
      (run Registry.standard host (before ++ after))
      (run Registry.standard host (before ++ "--" :: after)) := by
  rw [run_append_of_ok h, run_append_of_ok h, runFrom_value hpending]
  cases after with
  | nil =>
    rw [runFrom_nil_of_pending]
    exact .lastValue hpending h
  | cons next after =>
    rw [runFrom_value hpending]
    exact .value next after hpending h

/-- The tokens before the separator bring both runs to the same point, and the state of the scan
there says what becomes of the separator. -/
theorem meetsSeparator (host : Host) (before after : List String) :
    MeetsSeparator host before after
      (run Registry.standard host (before ++ after))
      (run Registry.standard host (before ++ "--" :: after)) := by
  rcases h : Scan.feedAll Registry.standard Scan.start (Session.start host) before with
    ⟨outcome, scan, session⟩
  cases outcome with
  | error f =>
    rw [run_append_of_error h, run_append_of_error h]
    exact .unreached after h
  | ok =>
    cases hpending : scan.pending with
    | none =>
      rw [run_append_of_ok h, run_append_of_ok h,
        runFrom_unsupported hpending session (by decide) (by decide)]
      exact .argument after hpending h
    | some option =>
      have hscan : { { scan with pending := none } with pending := some option } = scan := by
        rw [← hpending]
      rw [← hscan] at h
      exact meetsSeparator_of_pending { scan with pending := none } rfl h after

/-- A run as it is called, next to a run with the tokens as they stand. Without a separator they are
the same. The first separator is left out, no other token is, and the order stays; what a run with
the tokens as they stand would make of it is told by the scan of the tokens before it. The token
after an option that is not the first separator is its value, whatever it looks like. -/
theorem execute_against_run (host : Host) :
    (∀ tokens, "--" ∉ tokens → execute host tokens = run Registry.standard host tokens) ∧
    (∀ before after, "--" ∉ before →
      execute host (before ++ "--" :: after) = run Registry.standard host (before ++ after) ∧
      MeetsSeparator host before after (execute host (before ++ "--" :: after))
        (run Registry.standard host (before ++ "--" :: after))) ∧
    ∀ before value after scan session option, "--" ∉ before → value ≠ "--" →
      scan.pending = none →
      Scan.feedAll Registry.standard Scan.start (Session.start host) before =
        (.ok (), { scan with pending := some option }, session) →
      execute host (before ++ value :: after) =
        runWithValue Registry.standard scan session option value (after.erase "--") := by
  refine ⟨fun tokens h => execute_of_notMem h host, ?_, ?_⟩
  · intro before after h
    have hexecute : execute host (before ++ "--" :: after) =
        run Registry.standard host (before ++ after) := by
      rw [execute_append h, List.erase_cons_head]
    refine ⟨hexecute, ?_⟩
    rw [hexecute]
    exact meetsSeparator host before after
  · intro before value after scan session option h hvalue hpending hscan
    rw [execute_append h, List.erase_cons_tail (by simpa using hvalue), run_append_of_ok hscan,
      runFrom_value hpending]

/-- A value that begins with a dash is one, and the separator after it is left out. -/
theorem execute_against_run_dashed :
    let host : Host := ⟨.empty, [], [], 0⟩
    "--" ∉ ["-c"] ∧ "-x" ≠ "--" ∧ Scan.start.pending = none ∧
    Scan.feedAll Registry.standard Scan.start (Session.start host) ["-c"] =
      (.ok (), { Scan.start with pending := some .pattern }, Session.start host) ∧
    execute host ["-c", "-x", "--", "-o"] =
      runWithValue Registry.standard Scan.start (Session.start host) .pattern "-x" ["-o"] := by
  intro host
  have hscan : Scan.feedAll Registry.standard Scan.start (Session.start host) ["-c"] =
    (.ok (), { Scan.start with pending := some .pattern }, Session.start host) := rfl
  exact ⟨by decide, by decide, rfl, hscan,
    (execute_against_run host).2.2 ["-c"] "-x" ["--", "-o"] Scan.start (Session.start host) .pattern
      (by decide) (by decide) rfl hscan⟩

/-- A separator is not the value of the option before it: scanned as it stands, it is a pattern,
and all that is missing are inputs; called with it, the pattern lacks its value. -/
theorem execute_separator_value :
    let host : Host := ⟨.empty, [], [], 0⟩
    (run Registry.standard host ["-c", "--"]).output = usage ∧
    (run Registry.standard host ["-c", "--"]).errorLines = [] ∧
    (execute host ["-c", "--"]).output = "" ∧
    (execute host ["-c", "--"]).errorLines = [.message "Missing value for option -c"] := by
  decide +kernel

end DexListing.CommandLine
