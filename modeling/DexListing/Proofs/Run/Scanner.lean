import DexListing.Proofs.Run.Resolutions

/-!
# Scanning call by call

A scanner can be called again after a call that has failed. Whether it waits for a value and for
that of which option are two things that it has to keep together, so they are two variables here
(`Scanner`); a scan has them in one. The two go side by side, call by call (`Scanner.feed_scanner`,
`Scanner.callEach_scanner`), so a scanner never waits for a value without an option to give it to. A
call that fails changes nothing that has been collected (`Scanner.feed_of_error`). Of the temporary
files of the session every call adds the same to the inputs, or fewer if it fails
(`Scan.keepsTrack_feed`), and by induction all calls do (`Scan.keepsTrack_callEach`).
-/

set_option autoImplicit false

namespace DexListing

/-! ## A scanner with two variables -/

/-- What the next token is taken for: an option or an input, or the value of an option. -/
inductive ScanState
  | awaitingArgument
  | awaitingValue
  deriving DecidableEq, Repr

/-- What has been collected from tokens. -/
structure Collected where
  classPattern : Option String
  selection : Selection
  outputDirectory : Option PathName
  writerId : Option String
  logLevel : Option String
  entries : List InputEntry

/-- The temporary files among the inputs, in order. -/
def Collected.temporaries (c : Collected) : List PathName :=
  (c.entries.filter (·.isTemporary)).map (·.path)

/-- A scanner between two calls. -/
structure Scanner where
  state : ScanState
  pendingOption : Option String
  collected : Collected

/-- What a scan has collected. -/
def Scan.collected (scan : Scan) : Collected where
  classPattern := scan.classPattern
  selection := scan.selection
  outputDirectory := scan.outputDirectory
  writerId := scan.writerId
  logLevel := scan.logLevel
  entries := scan.entries

/-- The scan that has collected something and waits for no value. -/
def Collected.scan (c : Collected) : Scan where
  pending := none
  classPattern := c.classPattern
  selection := c.selection
  outputDirectory := c.outputDirectory
  writerId := c.writerId
  logLevel := c.logLevel
  entries := c.entries

/-- The scanner that a scan is. -/
def Scan.scanner (scan : Scan) : Scanner :=
  match scan.pending with
  | none => ⟨.awaitingArgument, none, scan.collected⟩
  | some option => ⟨.awaitingValue, some option.text, scan.collected⟩

namespace Scanner

/-- Nothing has been collected. -/
def start : Scanner := ⟨.awaitingArgument, none, Scan.start.collected⟩

/-- Takes the value of an option; without an option to give it to, the value is lost. -/
def applyOption (registry : Registry) (host : Host) (c : Collected) (option : Option String)
    (value : String) : Except Failure Collected :=
  match option.bind OptionName.ofText? with
  | none => .ok c
  | some name => (Scan.applyOption registry host c.scan name value).map Scan.collected

/-- Takes one token. The option is forgotten before its value is judged. -/
def feed (registry : Registry) (scanner : Scanner) (session : Session) (token : String) :
    Except Failure Unit × Scanner × Session :=
  match scanner.state with
  | .awaitingValue =>
    let next : Scanner := ⟨.awaitingArgument, none, scanner.collected⟩
    match applyOption registry session.host scanner.collected scanner.pendingOption token with
    | .error f => (.error f, next, session)
    | .ok collected => (.ok (), { next with collected }, session)
  | .awaitingArgument =>
    if isDashed token then
      if token ∈ OptionName.all.map OptionName.text then
        (.ok (), ⟨.awaitingValue, some token, scanner.collected⟩, session)
      else (.error (.configuration (.unsupportedArgument token)), scanner, session)
    else
      match scanner.collected.scan.addInput session token with
      | (outcome, scan, session) => (outcome, { scanner with collected := scan.collected }, session)

end Scanner

/-! ## Calls one after the other -/

/-- What has come of calls: how each of them ended, and the states at the end. -/
structure Calls (σ : Type) where
  outcomes : List (Except Failure Unit)
  state : σ
  session : Session

/-- Calls with one token after the other, whether or not the calls before have failed. -/
def callEach {σ : Type} (feed : σ → Session → String → Except Failure Unit × σ × Session) :
    List String → σ → Session → Calls σ
  | [], state, session => ⟨[], state, session⟩
  | token :: rest, state, session =>
    let fed := feed state session token
    let calls := callEach feed rest fed.2.1 fed.2.2
    ⟨fed.1 :: calls.outcomes, calls.state, calls.session⟩

/-- All calls have gone well. -/
def Calls.AllWell {σ : Type} (calls : Calls σ) : Prop :=
  ∀ outcome ∈ calls.outcomes, outcome = .ok ()

/-! ## The scan as a scanner -/

/-- Adding an input does not change which value is awaited. -/
theorem Scan.addInput_pending (scan : Scan) (s : Session) (token : String) :
    (scan.addInput s token).2.1.pending = scan.pending := by
  unfold addInput
  split
  · split <;> rfl
  · rfl
  · rfl

/-- All but the pending option is told by what a scan has collected. -/
theorem Scan.scan_collected (scan : Scan) :
    scan.collected.scan = { scan with pending := none } := rfl

/-- A scan that awaits no value awaits an argument. -/
theorem Scan.scanner_of_pending {scan : Scan} (hpending : scan.pending = none) :
    scan.scanner = ⟨.awaitingArgument, none, scan.collected⟩ := by
  unfold scanner
  rw [hpending]

namespace Scanner

/-- A token is spelled like an option if it is the text of one. -/
theorem mem_texts_iff {token : String} :
    token ∈ OptionName.all.map OptionName.text ↔
      ∃ option, OptionName.ofText? token = some option := by
  rw [List.mem_map]
  constructor
  · rintro ⟨option, -, htext⟩
    exact ⟨option, OptionName.ofText?_eq_some_iff.mpr htext⟩
  · rintro ⟨option, hoption⟩
    exact ⟨option, by cases option <;> decide, OptionName.ofText?_eq_some_iff.mp hoption⟩

/-- The scanner that a scan is takes a token as the scan does. -/
theorem feed_scanner (registry : Registry) (scan : Scan) (session : Session) (token : String) :
    feed registry scan.scanner session token =
      ((scan.feed registry session token).1, (scan.feed registry session token).2.1.scanner,
        (scan.feed registry session token).2.2) := by
  cases hpending : scan.pending with
  | some option =>
    have hscanner : scan.scanner = ⟨.awaitingValue, some option.text, scan.collected⟩ := by
      unfold Scan.scanner
      rw [hpending]
    have hname : (some option.text).bind OptionName.ofText? = some option :=
      OptionName.ofText?_eq_some_iff.mpr rfl
    unfold feed applyOption Scan.feed
    rw [hscanner, hpending]
    dsimp only
    rw [hname]
    dsimp only
    rw [Scan.scan_collected]
    cases happly : Scan.applyOption registry session.host { scan with pending := none } option
      token with
    | error f => rfl
    | ok next =>
      have hnext : next.pending = none := (Scan.applyOption_keeps happly).2
      dsimp only [Except.map]
      rw [Scan.scanner_of_pending hnext]
  | none =>
    rw [Scan.scanner_of_pending hpending]
    unfold feed
    dsimp only
    by_cases hdashed : isDashed token = true
    · rw [if_pos hdashed, Scan.feed_dashed hpending session hdashed]
      cases hoption : OptionName.ofText? token with
      | none =>
        rw [if_neg (by rw [mem_texts_iff, hoption]; rintro ⟨_, hnone⟩; exact nomatch hnone)]
        rw [Scan.scanner_of_pending hpending]
      | some option =>
        rw [if_pos (mem_texts_iff.mpr ⟨option, hoption⟩),
          ← OptionName.ofText?_eq_some_iff.mp hoption]
        rfl
    · have hsame : { scan with pending := none } = scan := by rw [← hpending]
      rw [if_neg hdashed, Scan.feed_input hpending session hdashed, Scan.scan_collected, hsame]
      have hadded := scan.addInput_pending session token
      rw [hpending] at hadded
      rw [Scan.scanner_of_pending hadded]

/-- Calls of the scanner that a scan is end as the calls of the scan do. -/
theorem callEach_scanner (registry : Registry) (tokens : List String) (scan : Scan)
    (session : Session) :
    callEach (feed registry) tokens scan.scanner session =
      ⟨(callEach (Scan.feed registry) tokens scan session).outcomes,
        (callEach (Scan.feed registry) tokens scan session).state.scanner,
        (callEach (Scan.feed registry) tokens scan session).session⟩ := by
  induction tokens generalizing scan session with
  | nil => rfl
  | cons token rest ih =>
    rw [callEach, callEach, feed_scanner]
    dsimp only
    rw [ih]

/-! ## What a scanner keeps together -/

/-- A value is waited for if and only if there is an option to give it to, which is one of the
options there are. -/
structure Consistent (scanner : Scanner) : Prop where
  awaits : scanner.state = .awaitingValue ↔ ∃ name, scanner.pendingOption = some name
  supported : ∀ name, scanner.pendingOption = some name → name ∈ ["-c", "-d", "-o", "-w", "-l"]

/-- The scanner of a scan has an option exactly while it awaits a value. -/
theorem consistent_scanner (scan : Scan) : scan.scanner.Consistent := by
  unfold Scan.scanner
  cases scan.pending with
  | none => exact ⟨⟨nofun, nofun⟩, fun _ => nofun⟩
  | some option =>
    refine ⟨⟨fun _ => ⟨option.text, rfl⟩, fun _ => rfl⟩, ?_⟩
    rintro name ⟨⟩
    cases option <;> decide

/-- A failing call changes nothing that has been collected, and the next token is not taken for a
value. -/
theorem feed_of_error {registry : Registry} {scanner : Scanner} {session : Session} {token : String}
    {f : Failure} (hfails : (feed registry scanner session token).1 = .error f) :
    (feed registry scanner session token).2.1.collected = scanner.collected ∧
      (feed registry scanner session token).2.1.state = .awaitingArgument := by
  cases hstate : scanner.state with
  | awaitingValue =>
    unfold feed at hfails ⊢
    rw [hstate] at hfails ⊢
    dsimp only at hfails ⊢
    split at hfails
    · exact ⟨rfl, rfl⟩
    · exact nomatch hfails
  | awaitingArgument =>
    unfold feed at hfails ⊢
    rw [hstate] at hfails ⊢
    dsimp only at hfails ⊢
    by_cases hdashed : isDashed token = true
    · rw [if_pos hdashed] at hfails ⊢
      split at hfails
      · exact nomatch hfails
      · next hname =>
        rw [if_neg hname]
        exact ⟨rfl, hstate⟩
    · rw [if_neg hdashed] at hfails ⊢
      dsimp only at hfails ⊢
      refine ⟨?_, rfl⟩
      -- Only an input that is found is added.
      cases hresolve : (session.resolve token).1 with
      | error f' =>
        rw [Scan.addInput_of_error _ hresolve]
        split <;> rfl
      | ok found =>
        cases found with
        | none =>
          rw [Scan.addInput_of_none _ hresolve]
          rfl
        | some entry =>
          rw [Scan.addInput_of_some _ hresolve] at hfails
          exact nomatch hfails

end Scanner

/-! ## Temporary files among the inputs -/

/-- From one point of a scan to a later one the inputs gain temporary files, in order, which the
session gains as well; if all has gone well they are all that it gains. -/
def Scan.KeepsTrack (allWell : Prop) (scan : Scan) (s : Session) (scan' : Scan) (s' : Session) :
    Prop :=
  ∃ entered made, scan'.collected.temporaries = scan.collected.temporaries ++ entered ∧
    s'.temporaries = s.temporaries ++ made ∧ entered.Sublist made ∧ (allWell → entered = made)

namespace Scan

variable {scan scan' scan'' : Scan} {s s' s'' : Session} {allWell : Prop}

/-- What changes neither the entries nor the record of files keeps track. -/
theorem KeepsTrack.of_same (hentries : scan'.entries = scan.entries)
    (htemporaries : s'.temporaries = s.temporaries) : KeepsTrack allWell scan s scan' s' := by
  refine ⟨[], [], ?_, ?_, .slnil, fun _ => rfl⟩
  · rw [List.append_nil]
    unfold Collected.temporaries collected
    rw [hentries]
  · rw [htemporaries, List.append_nil]

/-- Two steps keep track if each of them does. -/
theorem KeepsTrack.trans {first rest : Prop} (h : KeepsTrack first scan s scan' s')
    (h' : KeepsTrack rest scan' s' scan'' s'') :
    KeepsTrack (first ∧ rest) scan s scan'' s'' := by
  obtain ⟨entered, made, hentered, hmade, hsub, hsame⟩ := h
  obtain ⟨entered', made', hentered', hmade', hsub', hsame'⟩ := h'
  refine ⟨entered ++ entered', made ++ made', ?_, ?_, hsub.append hsub', ?_⟩
  · rw [hentered', hentered, List.append_assoc]
  · rw [hmade', hmade, List.append_assoc]
  · rintro ⟨hfirst, hrest⟩
    rw [hsame hfirst, hsame' hrest]

/-- An entry that is added adds its file, if it is temporary. -/
theorem temporaries_concat (scan : Scan) (entry : InputEntry) :
    ({ scan with entries := scan.entries ++ [entry] } : Scan).collected.temporaries =
      scan.collected.temporaries ++ if entry.isTemporary then [entry.path] else [] := by
  unfold Collected.temporaries collected
  rw [List.filter_append, List.map_append]
  cases h : entry.isTemporary <;> simp [h]

/-- A temporary file that is made for an input is entered with it; one that is left by a failure is
not. -/
theorem keepsTrack_addInput (scan : Scan) (s : Session) (token : String) :
    KeepsTrack ((scan.addInput s token).1 = .ok ()) scan s (scan.addInput s token).2.1
      (scan.addInput s token).2.2 := by
  have houtcome := s.resolve_outcome token
  rcases hresolve : (s.resolve token).1 with f | _ | entry
  · rw [hresolve] at houtcome
    rw [addInput_of_error scan hresolve]
    generalize (s.resolve token).2 = s' at houtcome ⊢
    cases houtcome with
    | same hsame _ => split <;> exact .of_same rfl hsame.temporaries
    | @failed _ _ path _ hkind hgains =>
      rw [if_neg (by rw [hkind]; exact Bool.false_ne_true)]
      exact ⟨[], [path], (List.append_nil _).symm, hgains.temporaries, List.nil_sublist _, nofun⟩
  · rw [hresolve] at houtcome
    rw [addInput_of_none scan hresolve]
    generalize (s.resolve token).2 = s' at houtcome ⊢
    cases houtcome with
    | same hsame _ => exact .of_same rfl hsame.temporaries
  · rw [hresolve] at houtcome
    rw [addInput_of_some scan hresolve]
    generalize (s.resolve token).2 = s' at houtcome ⊢
    cases houtcome with
    | same hsame hentry =>
      refine ⟨[], [], ?_, ?_, .slnil, fun _ => rfl⟩
      · rw [temporaries_concat, hentry entry rfl]
        rfl
      · rw [hsame.temporaries, List.append_nil]
    | extracted htemporary hgains =>
      refine ⟨[entry.path], [entry.path], ?_, hgains.temporaries, .refl _, fun _ => rfl⟩
      rw [temporaries_concat, if_pos htemporary]

/-- Options and their values make no temporary files. -/
theorem keepsTrack_feed (registry : Registry) (scan : Scan) (s : Session) (token : String) :
    KeepsTrack ((scan.feed registry s token).1 = .ok ()) scan s (scan.feed registry s token).2.1
      (scan.feed registry s token).2.2 := by
  unfold feed
  split
  · dsimp only
    split
    · exact .of_same rfl rfl
    · next happlied =>
      obtain ⟨hentries, -⟩ := applyOption_keeps happlied
      exact .of_same hentries rfl
  · split
    · split
      · exact .of_same rfl rfl
      · exact .of_same rfl rfl
    · exact keepsTrack_addInput scan s token

/-- All calls keep track of the temporary files. The induction is on the tokens, with the scan and
the session that the calls before have left. -/
theorem keepsTrack_callEach (registry : Registry) (tokens : List String) (scan : Scan)
    (s : Session) :
    KeepsTrack (callEach (feed registry) tokens scan s).AllWell scan s
      (callEach (feed registry) tokens scan s).state
      (callEach (feed registry) tokens scan s).session := by
  induction tokens generalizing scan s with
  | nil => exact .of_same rfl rfl
  | cons token rest ih =>
    have hboth := (keepsTrack_feed registry scan s token).trans
      (ih (scan.feed registry s token).2.1 (scan.feed registry s token).2.2)
    obtain ⟨entered, made, hentered, hmade, hsub, hsame⟩ := hboth
    rw [callEach]
    refine ⟨entered, made, hentered, hmade, hsub, fun hwell => hsame ⟨?_, ?_⟩⟩
    · exact hwell _ List.mem_cons_self
    · exact fun outcome houtcome => hwell outcome (List.mem_cons_of_mem _ houtcome)

end Scan

/-! ## All calls -/

/-- Calls with any tokens, on a session that is used for nothing else, go as those of the scan.
After them a value is waited for if and only if there is one of the options to give it to; another
call that fails changes nothing that has been collected, and no value is waited for afterwards; and
the temporary files among the inputs are some of those of the session, in their order, and all of
them if no call has failed. -/
theorem Scanner.calls_consistent (registry : Registry) (host : Host) (tokens : List String) :
    let calls := callEach (feed registry) tokens start (Session.start host)
    let scans := callEach (Scan.feed registry) tokens Scan.start (Session.start host)
    (calls.outcomes = scans.outcomes ∧ calls.state = scans.state.scanner ∧
      calls.session = scans.session) ∧
    calls.state.Consistent ∧
    (∀ token f, (feed registry calls.state calls.session token).1 = .error f →
      (feed registry calls.state calls.session token).2.1.collected = calls.state.collected ∧
      (feed registry calls.state calls.session token).2.1.state = .awaitingArgument) ∧
    calls.state.collected.temporaries.Sublist calls.session.temporaries ∧
    (calls.AllWell → calls.state.collected.temporaries = calls.session.temporaries) := by
  intro calls scans
  have hsame : calls = ⟨scans.outcomes, scans.state.scanner, scans.session⟩ :=
    callEach_scanner registry tokens Scan.start (Session.start host)
  have hcollected : scans.state.scanner.collected = scans.state.collected := by
    unfold Scan.scanner
    split <;> rfl
  obtain ⟨entered, made, hentered, hmade, hsub, hwell⟩ :=
    Scan.keepsTrack_callEach registry tokens Scan.start (Session.start host)
  change scans.state.collected.temporaries = [] ++ entered at hentered
  change scans.session.temporaries = [] ++ made at hmade
  rw [List.nil_append] at hentered hmade
  rw [hsame]
  dsimp only
  rw [hcollected, hentered, hmade]
  refine ⟨⟨rfl, rfl, rfl⟩, consistent_scanner scans.state, ?_, hsub, hwell⟩
  intro token f hfails
  rw [← hcollected]
  exact feed_of_error hfails

end DexListing
