import DexListing.Proofs.File.Losses
import DexListing.Run.Session
import Mathlib.Data.List.Forall2
import Mathlib.Data.List.Nodup

/-!
# Keeping books on temporary files

A session knows its temporary files by their path names only, and whatever goes on around it may
change what is under them at any time. Here a session goes through happenings of three kinds: it
makes a temporary file, it is cleaned up, or the file tree becomes another one
(`Session.happenAll`). The books are in order after each of them (`Session.Accounts`): the session
lists what has been made since the last clean-up, in this order, and whatever has been made is
listed or has been tried to be removed, once altogether. A clean-up tries all that is listed, takes
away what can be taken away, and nothing else (`Session.CleansUp`).
-/

set_option autoImplicit false

namespace DexListing

namespace Host

variable {h h' : Host} {p : PathName}

/-! ## Drawing path names -/

/-- Temporary files with different numbers have different names. -/
theorem temporaryName_inj {n m : Nat} : temporaryName n = temporaryName m ↔ n = m := by
  constructor
  · intro heq
    have hchars := congrArg String.toList heq
    unfold temporaryName at hchars
    rw [String.toList_append, String.toList_append, String.toList_append,
      String.toList_append] at hchars
    have htexts := List.append_cancel_left (List.append_cancel_right hchars)
    have hdigits : Nat.toDigits 10 n = Nat.toDigits 10 m := by
      rwa [Nat.toString_eq_ofList_toDigits, Nat.toString_eq_ofList_toDigits, String.toList_ofList,
        String.toList_ofList] at htexts
    calc
      n = Nat.ofDigitChars 10 (Nat.toDigits 10 n) 0 := Nat.ofDigitChars_ten_toDigits.symm
      _ = Nat.ofDigitChars 10 (Nat.toDigits 10 m) 0 := by rw [hdigits]
      _ = m := Nat.ofDigitChars_ten_toDigits
  · exact congrArg temporaryName

/-- So they have different path names. -/
theorem temporaryPath_inj (h : Host) {n m : Nat} :
    h.temporaryPath n = h.temporaryPath m ↔ n = m := by
  constructor
  · intro heq
    have hparts := List.append_cancel_left (PathName.mk.inj heq).2
    exact temporaryName_inj.mp (List.cons.inj hparts).1
  · exact congrArg h.temporaryPath

/-- A path name that a temporary file has been made under. -/
structure HasDrawn (h : Host) (p : PathName) : Prop where
  noNul : p.hasNul = false
  number : ∃ n < h.drawn, p = h.temporaryPath n

/-- A number that is drawn is not one of those drawn before. -/
theorem drawn_le_freshNumber (h : Host) : h.drawn ≤ h.freshNumber := by
  unfold freshNumber
  dsimp only
  cases hfound : List.find? _ ((List.range (h.tree.size + 1)).map (h.drawn + ·)) with
  | none => exact Nat.le_refl h.drawn
  | some n =>
    obtain ⟨k, -, hk⟩ := List.mem_map.mp (List.mem_of_find?_eq_some hfound)
    rw [Option.getD_some, ← hk]
    exact Nat.le_add_right h.drawn k

/-- A temporary file gets a path name that none has had before it. -/
theorem hasDrawn_of_makeTemporary (hmake : h.makeTemporary = .ok (p, h')) :
    ¬h.HasDrawn p ∧ h'.HasDrawn p ∧ ∀ q, h.HasDrawn q → h'.HasDrawn q := by
  unfold makeTemporary makeNode at hmake
  dsimp only at hmake
  split at hmake
  · exact nomatch hmake
  · next made hnode =>
    obtain ⟨rfl, rfl⟩ := Prod.mk.inj (Except.ok.inj hmake)
    split at hnode
    · exact nomatch hnode
    · next l hplace =>
      obtain rfl := Except.ok.inj hnode
      have hfresh := h.drawn_le_freshNumber
      refine ⟨?_, ?_, ?_⟩
      · rintro ⟨-, n, hn, heq⟩
        have hnumber := (h.temporaryPath_inj).mp heq
        omega
      · exact ⟨(walks_of_place hplace).1, h.freshNumber, Nat.lt_succ_self _, rfl⟩
      · rintro q ⟨hnul, n, hn, rfl⟩
        exact ⟨hnul, n, Nat.lt_succ_of_lt (Nat.lt_of_lt_of_le hn hfresh), rfl⟩
    · exact nomatch hnode

/-- What is reported of a temporary file after a clean-up: that there is nothing any more under its
path name, or why the system refuses to remove it. -/
inductive Disposes (h h' : Host) (p : PathName) : Event → Prop
  | removed :
      (∀ l node, h'.place .entry p ≠ .ok (.existing l node)) →
      Disposes h h' p (.temporaryRemoved p)
  | left {fault : FileFault} :
      h.unlink p = .error (.refused fault p) →
      Disposes h h' p (.temporaryLeft p (.refused fault p))

/-- Each of the files has its outcome among the outcomes. -/
theorem exists_disposes {paths : List PathName} {outcomes : List Event}
    (hall : List.Forall₂ (h.Disposes h') paths outcomes) (hp : p ∈ paths) :
    ∃ outcome ∈ outcomes, h.Disposes h' p outcome := by
  induction hall with
  | nil => exact nomatch hp
  | cons hfirst _ ih =>
    cases hp with
    | head => exact ⟨_, List.mem_cons_self, hfirst⟩
    | tail _ hp =>
      obtain ⟨outcome, hmem, hdisposes⟩ := ih hp
      exact ⟨outcome, List.mem_cons_of_mem _ hmem, hdisposes⟩

end Host

namespace Session

/-! ## Cleaning up -/

/-- A session after it has tried to remove files, one after the other. -/
structure Removes (s : Session) (files : List PathName) (outcomes : List Event) (s' : Session) :
    Prop where
  temporaries : s'.temporaries = s.temporaries
  events : s'.events = s.events ++ outcomes
  loses : s.host.Loses files s'.host
  disposes : List.Forall₂ (s.host.Disposes s'.host) files outcomes

/-- One file: it is removed, or the system refuses that and nothing changes. -/
theorem removes_one (s : Session) {path : PathName} (hnul : path.hasNul = false) :
    ∃ outcome, s.Removes [path] [outcome] (s.removeTemporary path) := by
  unfold removeTemporary
  cases hunlink : s.host.unlink path with
  | error e =>
    obtain ⟨fault, rfl⟩ := Host.refused_of_unlink hnul hunlink
    exact ⟨_, rfl, events_report _ _, .refl s.host [path], .cons (.left hunlink) .nil⟩
  | ok host =>
    obtain ⟨hloses, hgone⟩ := Host.loses_of_unlink hunlink
    exact ⟨_, rfl, events_report _ _, hloses, .cons (.removed hgone) .nil⟩

/-- The files after the first one: what they come to is decided by the host as it was before the
first one. -/
theorem Removes.cons {s s' s'' : Session} {path : PathName} {files : List PathName}
    {outcome : Event} {outcomes : List Event} (hfirst : s.Removes [path] [outcome] s')
    (hrest : s'.Removes files outcomes s'') :
    s.Removes (path :: files) (outcome :: outcomes) s'' where
  temporaries := hrest.temporaries.trans hfirst.temporaries
  events := by
    rw [hrest.events, hfirst.events, List.append_assoc]
    rfl
  loses := hfirst.loses.trans hrest.loses
  disposes := by
    refine .cons ?_ (hrest.disposes.imp fun q event hevent => ?_)
    · cases hfirst.disposes with
      | cons hdisposes =>
        cases hdisposes with
        | removed hgone => exact .removed (hrest.loses.not_existing hgone)
        | left hunlink => exact .left hunlink
    · cases hevent with
      | removed hgone => exact .removed hgone
      | left hunlink => exact .left (hfirst.loses.unlink_eq_error hunlink)

/-- A clean-up has an outcome for each file in turn, whatever becomes of the others. -/
theorem removes_all (s : Session) {files : List PathName}
    (hnul : ∀ path ∈ files, path.hasNul = false) :
    ∃ outcomes, s.Removes files outcomes (files.foldl removeTemporary s) := by
  induction files generalizing s with
  | nil => exact ⟨[], rfl, (List.append_nil s.events).symm, .refl s.host [], .nil⟩
  | cons path files ih =>
    obtain ⟨outcome, hfirst⟩ := s.removes_one (hnul path List.mem_cons_self)
    obtain ⟨outcomes, hrest⟩ := ih (s.removeTemporary path)
      (fun q hq => hnul q (List.mem_cons_of_mem path hq))
    exact ⟨outcome :: outcomes, hfirst.cons hrest⟩

/-- A clean-up. Each temporary file is tried once, from the last one on, and forgotten. Those that
could have been removed at its beginning are reported as removed and are gone. It takes away no
entries but theirs, and cleaning up again does nothing. -/
structure CleansUp (s : Session) (outcomes : List Event) (s' : Session) : Prop where
  forgets : s'.temporaries = []
  events : s'.events = s.events ++ outcomes
  disposes : List.Forall₂ (s.host.Disposes s'.host) s.temporaries.reverse outcomes
  removes : ∀ path ∈ s.temporaries, ∀ host, s.host.unlink path = .ok host →
    .temporaryRemoved path ∈ outcomes ∧
      ∀ l node, s'.host.place .entry path ≠ .ok (.existing l node)
  loses : s.host.Loses s.temporaries s'.host
  again : s'.cleanUp = s'

/-- Without files on record a clean-up does nothing. -/
theorem cleanUp_of_temporaries_eq_nil {s : Session} (hnil : s.temporaries = []) :
    s.cleanUp = s := by
  obtain ⟨host, temporaries, newest⟩ := s
  obtain rfl : temporaries = [] := hnil
  rfl

/-- A clean-up removes the files on record, or says why it cannot. -/
theorem exists_cleansUp {s : Session} (hnul : ∀ path ∈ s.temporaries, path.hasNul = false) :
    ∃ outcomes, s.CleansUp outcomes s.cleanUp := by
  obtain ⟨outcomes, hremoves⟩ := removes_all { s with temporaries := [] }
    (fun path hpath => hnul path (List.mem_reverse.mp hpath))
  refine ⟨outcomes, hremoves.temporaries, hremoves.events, hremoves.disposes, ?_,
    hremoves.loses.mono fun path hpath => List.mem_reverse.mp hpath,
    cleanUp_of_temporaries_eq_nil hremoves.temporaries⟩
  intro path hpath host hunlink
  obtain ⟨outcome, hmem, hdisposes⟩ :=
    Host.exists_disposes hremoves.disposes (List.mem_reverse.mpr hpath)
  cases hdisposes with
  | removed hgone => exact ⟨hmem, hgone⟩
  | left hrefused =>
    rw [hunlink] at hrefused
    exact nomatch hrefused

/-! ## The books -/

/-- What can happen to a session: it makes a temporary file, it is cleaned up, or others change the
file tree in whatever way. -/
inductive Happening
  | create
  | cleanUp
  | outside (tree : FileTree)

/-- What goes on record of a happening. -/
inductive Record
  | made (path : PathName)
  | notMade (error : FileError)
  | cleanedUp
  | changed
  deriving DecidableEq

/-- The session after a happening. -/
def happen (s : Session) : Happening → Record × Session
  | .create =>
    match s.createTemporary with
    | (.ok path, s') => (.made path, s')
    | (.error e, s') => (.notMade e, s')
  | .cleanUp => (.cleanedUp, s.cleanUp)
  | .outside tree => (.changed, { s with host := { s.host with tree } })

/-- What happens outside changes the tree and no record. -/
theorem happen_outside (s : Session) (tree : FileTree) :
    s.happen (.outside tree) = (.changed, { s with host := { s.host with tree } }) :=
  rfl

/-- The session after happenings, with what goes on record of each. -/
def happenAll (s : Session) : List Happening → List Record × Session
  | [] => ([], s)
  | happening :: rest =>
    let (record, s') := s.happen happening
    let (records, s'') := s'.happenAll rest
    (record :: records, s'')

/-- A history is its first happening and the history after that. -/
theorem happenAll_cons (s : Session) (happening : Happening) (rest : List Happening) :
    s.happenAll (happening :: rest) =
      ((s.happen happening).1 :: ((s.happen happening).2.happenAll rest).1,
        ((s.happen happening).2.happenAll rest).2) :=
  rfl

/-- The path name of a temporary file that has been made. -/
def Record.path? : Record → Option PathName
  | .made path => some path
  | _ => none

/-- The temporary files that have been made, in order. -/
def made (records : List Record) : List PathName :=
  records.filterMap Record.path?

/-- The temporary files that have been made since the last clean-up, in order. -/
def madeSince (records : List Record) : List PathName :=
  made (records.reverse.takeWhile (· ≠ .cleanedUp)).reverse

/-- The temporary file that has been tried to be removed. -/
def tried? : Event → Option PathName
  | .temporaryRemoved path => some path
  | .temporaryLeft path _ => some path
  | _ => none

/-- The temporary files that have been tried to be removed, in order. -/
def tried (events : List Event) : List PathName :=
  events.filterMap tried?

/-- A record that tells of a file adds this file to those made. -/
theorem made_concat (records : List Record) (record : Record) :
    made (records ++ [record]) = made records ++ record.path?.toList := by
  unfold made
  rw [List.filterMap_append, List.filterMap_cons]
  cases record.path? <;> rfl

/-- Right after a clean-up no file has been made. -/
theorem madeSince_cleanedUp (records : List Record) :
    madeSince (records ++ [.cleanedUp]) = [] := by
  unfold madeSince
  rw [List.reverse_concat, List.takeWhile_cons]
  rfl

/-- Any other record adds the file that it tells of, if any. -/
theorem madeSince_concat (records : List Record) {record : Record}
    (hrecord : record ≠ .cleanedUp) :
    madeSince (records ++ [record]) = madeSince records ++ record.path?.toList := by
  unfold madeSince
  rw [List.reverse_concat, List.takeWhile_cons, if_pos (decide_eq_true hrecord),
    List.reverse_cons, made_concat]

/-- The outcomes of a clean-up tell which files were tried: each of them, in order. -/
theorem tried_of_disposes {h h' : Host} {files : List PathName} {outcomes : List Event}
    (hall : List.Forall₂ (h.Disposes h') files outcomes) : tried outcomes = files := by
  induction hall with
  | nil => rfl
  | @cons path outcome files outcomes hfirst _ ih =>
    have htried : tried? outcome = some path := by
      cases hfirst <;> rfl
    unfold tried at ih ⊢
    rw [List.filterMap_cons_some htried, ih]

/-- The books of a session are in order: it lists what has been made since the last clean-up, and
what has been made is listed or has been tried to be removed, each file once. -/
structure Accounts (records : List Record) (s : Session) : Prop where
  listed : s.temporaries = madeSince records
  settled : (tried s.events ++ s.temporaries).Perm (made records)
  nodup : (made records).Nodup
  drawn : ∀ path ∈ made records, s.host.HasDrawn path

namespace Accounts

variable {s s' : Session} {records : List Record}

/-- The path names on record hold no zero character. -/
theorem noNul (haccounts : Accounts records s) {path : PathName} (hpath : path ∈ s.temporaries) :
    path.hasNul = false :=
  (haccounts.drawn path (haccounts.settled.subset (List.mem_append_right _ hpath))).noNul

/-- Nothing is made: the lists stay as they are. -/
theorem of_same (haccounts : Accounts records s) {record : Record} (hpath : record.path? = none)
    (hrecord : record ≠ .cleanedUp) (htemporaries : s'.temporaries = s.temporaries)
    (hevents : s'.events = s.events) (hdrawn : ∀ p, s.host.HasDrawn p → s'.host.HasDrawn p) :
    Accounts (records ++ [record]) s' := by
  have hmade : made (records ++ [record]) = made records := by
    rw [made_concat, hpath, Option.toList_none, List.append_nil]
  refine ⟨?_, ?_, ?_, ?_⟩
  · rw [htemporaries, madeSince_concat records hrecord, hpath, haccounts.listed,
      Option.toList_none, List.append_nil]
  · rw [hmade, hevents, htemporaries]
    exact haccounts.settled
  · rw [hmade]
    exact haccounts.nodup
  · rw [hmade]
    exact fun path hpath => hdrawn path (haccounts.drawn path hpath)

/-- A temporary file is made under a path name that is not on record yet. -/
theorem of_made (haccounts : Accounts records s) {path : PathName}
    (htemporaries : s'.temporaries = s.temporaries ++ [path]) (hevents : s'.events = s.events)
    (hfresh : ¬s.host.HasDrawn path) (hdrawn : s'.host.HasDrawn path)
    (hkept : ∀ p, s.host.HasDrawn p → s'.host.HasDrawn p) :
    Accounts (records ++ [.made path]) s' := by
  have hmade : made (records ++ [.made path]) = made records ++ [path] := made_concat _ _
  have hnew : path ∉ made records := fun hmem => hfresh (haccounts.drawn path hmem)
  refine ⟨?_, ?_, ?_, ?_⟩
  · have hrecord : Record.made path ≠ .cleanedUp := nofun
    rw [htemporaries, haccounts.listed]
    exact (madeSince_concat records hrecord).symm
  · rw [hmade, hevents, htemporaries, ← List.append_assoc]
    exact haccounts.settled.append_right [path]
  · rw [hmade, ← List.concat_eq_append]
    exact (List.nodup_concat (made records) path).mpr ⟨hnew, haccounts.nodup⟩
  · rw [hmade]
    intro p hp
    rcases List.mem_append.mp hp with hp | hp
    · exact hkept p (haccounts.drawn p hp)
    · rwa [List.mem_singleton.mp hp]

/-- Making a file keeps the account: the file is on record once it is there. -/
theorem create (haccounts : Accounts records s) :
    Accounts (records ++ [(s.happen .create).1]) (s.happen .create).2 := by
  unfold Session.happen createTemporary
  cases hmake : s.host.makeTemporary with
  | error e =>
    have hrecord : Record.notMade e ≠ .cleanedUp := nofun
    exact haccounts.of_same rfl hrecord rfl rfl fun _ hp => hp
  | ok result =>
    obtain ⟨path, host⟩ := result
    obtain ⟨hfresh, hdrawn, hkept⟩ := Host.hasDrawn_of_makeTemporary hmake
    exact haccounts.of_made rfl rfl hfresh hdrawn hkept

/-- What has been listed has been tried after a clean-up. -/
theorem cleanUp (haccounts : Accounts records s) :
    Accounts (records ++ [.cleanedUp]) s.cleanUp := by
  obtain ⟨outcomes, hclean⟩ := exists_cleansUp fun _ => haccounts.noNul
  have hmade : made (records ++ [.cleanedUp]) = made records := by
    rw [made_concat]
    exact List.append_nil _
  refine ⟨?_, ?_, ?_, ?_⟩
  · rw [hclean.forgets, madeSince_cleanedUp]
  · have htried : tried s.cleanUp.events = tried s.events ++ s.temporaries.reverse := by
      rw [hclean.events, ← tried_of_disposes hclean.disposes]
      exact List.filterMap_append
    rw [hmade, hclean.forgets, List.append_nil, htried]
    exact (s.temporaries.reverse_perm.append_left _).trans haccounts.settled
  · rw [hmade]
    exact haccounts.nodup
  · rw [hmade]
    intro path hpath
    have hdrawn := haccounts.drawn path hpath
    rw [hclean.loses.otherwise]
    exact ⟨hdrawn.noNul, hdrawn.number⟩

/-- Whatever happens keeps the account. -/
theorem happen (haccounts : Accounts records s) (happening : Happening) :
    Accounts (records ++ [(s.happen happening).1]) (s.happen happening).2 := by
  cases happening with
  | create => exact haccounts.create
  | cleanUp => exact haccounts.cleanUp
  | outside tree =>
    have hrecord : Record.changed ≠ .cleanedUp := nofun
    rw [happen_outside]
    exact haccounts.of_same rfl hrecord rfl rfl fun p hp => ⟨hp.noNul, hp.number⟩

/-- A whole history keeps the account. -/
theorem happenAll (haccounts : Accounts records s) (happenings : List Happening) :
    Accounts (records ++ (s.happenAll happenings).1) (s.happenAll happenings).2 := by
  induction happenings generalizing s records with
  | nil =>
    unfold Session.happenAll
    rwa [List.append_nil]
  | cons happening rest ih =>
    rw [happenAll_cons, List.append_cons]
    exact ih (haccounts.happen happening)

end Accounts

/-- The account is right at the start, with nothing made. -/
theorem accounts_start (host : Host) : Accounts [] (start host) :=
  ⟨rfl, .nil, List.nodup_nil, fun _ => nofun⟩

/-- Whatever happens, a session lists the temporary files that have been made since the last
clean-up, in order; each that has ever been made is either listed or has been tried to be removed,
once and never again. And at any time a clean-up goes through the whole list. -/
theorem temporaries_on_record (host : Host) (happenings : List Happening) :
    let records := ((start host).happenAll happenings).1
    let s := ((start host).happenAll happenings).2
    s.temporaries = madeSince records ∧
      (tried s.events ++ s.temporaries).Perm (made records) ∧ (made records).Nodup ∧
      ∃ outcomes, s.CleansUp outcomes s.cleanUp := by
  intro records s
  have haccounts : Accounts records s := (accounts_start host).happenAll happenings
  exact ⟨haccounts.listed, haccounts.settled, haccounts.nodup,
    exists_cleansUp fun _ => haccounts.noNul⟩

/-- A temporary file that has been replaced by a directory stays there when the session is cleaned
up. A file that appears in its place later on is left alone by the next clean-up. -/
theorem temporaries_on_record_replaced :
    let path : PathName := ⟨.slash, ["dedex-0.dex"]⟩
    let directory := FileTree.empty.put ["dedex-0.dex"] .directory
    let file := FileTree.empty.put ["dedex-0.dex"] (.file #[])
    let run := (start ⟨.empty, [], [], 0⟩).happenAll
      [.create, .outside directory, .cleanUp, .outside file, .cleanUp]
    run.1 = [.made path, .changed, .cleanedUp, .changed, .cleanedUp] ∧
      run.2.events = [.temporaryLeft path (.refused .isDirectory path)] ∧
      run.2.host.tree = file ∧ run.2.temporaries = madeSince run.1 := by
  intro path directory file run
  have hcreate : (start ⟨.empty, [], [], 0⟩).happen .create =
      (.made path, ⟨⟨file, [], [], 1⟩, [path], []⟩) := by
    have hnumber : Host.freshNumber ⟨.empty, [], [], 0⟩ = 0 := by decide +kernel
    have hpath : Host.temporaryPath ⟨.empty, [], [], 0⟩ 0 = path := rfl
    have hplace : Host.place ⟨.empty, [], [], 0⟩ .entry path = .ok (.vacant ["dedex-0.dex"]) :=
      Host.place_of_short (by decide +kernel) (by decide +kernel)
        (.vacant rfl ⟨by decide +kernel, by decide, by decide +kernel⟩ rfl)
    unfold happen createTemporary Host.makeTemporary Host.makeNode start
    dsimp only
    rw [hnumber, hpath, hplace]
    rfl
  have hclean : Session.happen ⟨⟨directory, [], [], 1⟩, [path], []⟩ .cleanUp =
      (.cleanedUp,
        ⟨⟨directory, [], [], 1⟩, [], [.temporaryLeft path (.refused .isDirectory path)]⟩) := by
    have hplace : Host.place ⟨directory, [], [], 1⟩ .entry path =
        .ok (.existing ["dedex-0.dex"] .directory) :=
      Host.place_of_short (by decide +kernel) (by decide +kernel)
        (.into rfl ⟨by decide +kernel, by decide, by decide +kernel⟩ rfl (fun _ => nofun)
          (.arrived rfl))
    have hunlink : Host.unlink ⟨directory, [], [], 1⟩ path =
        .error (.refused .isDirectory path) := by
      unfold Host.unlink
      rw [hplace]
    change (Record.cleanedUp, removeTemporary ⟨⟨directory, [], [], 1⟩, [], []⟩ path) = _
    unfold removeTemporary
    rw [hunlink]
    rfl
  have hrun : run = ([.made path, .changed, .cleanedUp, .changed, .cleanedUp],
      ⟨⟨file, [], [], 1⟩, [], [.temporaryLeft path (.refused .isDirectory path)]⟩) := by
    change (start ⟨.empty, [], [], 0⟩).happenAll _ = _
    rw [happenAll_cons, hcreate, happenAll_cons, happen_outside, happenAll_cons, hclean]
    rfl
  refine ⟨congrArg Prod.fst hrun, ?_, ?_, (temporaries_on_record _ _).1⟩
  · rw [hrun]
    rfl
  · rw [hrun]

end Session

end DexListing
