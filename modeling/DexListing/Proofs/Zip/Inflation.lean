import DexListing.Proofs.Zip.PartialReads

/-!
# Inflation step by step

Deflated bytes hold some content if an inflater that has all of them, and room for all it puts out,
comes to the end with it (`Deflates`). An inflater that is given its bytes and its room little by
little stays on that way (`Inflater.Yields.of_step`), and where it pauses it lacks bytes or room or
has put out just the content (`Inflater.Yields.of_pause`).
-/

set_option autoImplicit false

namespace DexListing.Zip

namespace Inflater

/-- With all bytes and room for all output an inflater comes to the end from here, and has put out
the content then. -/
inductive Yields (data content : Bytes) : Inflater → Prop
  | done {s : Inflater} : s.phase = .finished → s.output = content → Yields data content s
  | step {s t : Inflater} : s.step data none = (t, none) → Yields data content t →
      Yields data content s

end Inflater

/-- Deflated bytes that hold some content. What comes after the last block does not count. -/
def Deflates (data content : Bytes) : Prop := Inflater.Yields data content .start

/-! ## Output -/

/-- A copy puts out as many bytes as it is long. -/
theorem size_copyBack (length distance : Nat) (output : Bytes) :
    (copyBack length distance output).size = output.size + length := by
  induction length generalizing output with
  | zero => rfl
  | succ length ih =>
    rw [copyBack, ih, Array.size_push]
    omega

/-- A copy can be made in two parts. -/
theorem copyBack_add (first length distance : Nat) (output : Bytes) :
    copyBack (first + length) distance output =
      copyBack length distance (copyBack first distance output) := by
  induction first generalizing output with
  | zero => rw [Nat.zero_add, copyBack]
  | succ first ih => rw [Nat.succ_add_eq_add_succ, Nat.add_succ, copyBack, copyBack, ih]

/-- A byte more keeps what has been put out. -/
theorem startsWith_push (output : Bytes) (b : UInt8) :
    Bytes.StartsWith (output.push b) output := by
  rw [← Array.append_singleton]
  exact Bytes.startsWith_append _ _

/-- A copy keeps what has been put out. -/
theorem startsWith_copyBack (length distance : Nat) (output : Bytes) :
    (copyBack length distance output).StartsWith output := by
  induction length generalizing output with
  | zero => exact .refl output
  | succ length ih =>
    rw [copyBack]
    exact (ih _).trans (startsWith_push output _)

/-- No more is allowed than is wanted. -/
theorem allowed_le (room : Option Nat) (produced wanted : Nat) :
    allowed room produced wanted ≤ wanted := by
  cases room with
  | none => exact Nat.le_refl wanted
  | some room => exact Nat.min_le_left _ _

/-- What is put out at a time is no more than is wanted. -/
theorem le_of_min_allowed {room : Option Nat} {produced wanted rest count : Nat}
    (h : min (allowed room produced wanted) rest = count) : count ≤ wanted :=
  h ▸ Nat.le_trans (Nat.min_le_left _ _) (allowed_le room produced wanted)

/-- If nothing of what is wanted can be put out then there is no room left. -/
theorem exists_room_of_allowed_eq_zero {room : Option Nat} {produced wanted : Nat}
    (hwanted : wanted ≠ 0) (h : allowed room produced wanted = 0) :
    ∃ size, room = some size ∧ size ≤ produced := by
  cases room with
  | none => exact absurd h hwanted
  | some size =>
    refine ⟨size, rfl, ?_⟩
    have hmin : min wanted (size - produced) = 0 := h
    omega

namespace Inflater

/-! ## Moves -/

/-- What a step does that is not a pause. -/
inductive Moves (data : Bytes) (room : Option Nat) : Inflater → Inflater → Prop
  | finish {position : Nat} {output : Bytes} :
      Moves data room ⟨position, true, .header, output⟩ ⟨position, true, .finished, output⟩
  | header {position next : Nat} {isLast : Bool} {phase : Phase} {output : Bytes} :
      readHeader data position = .ok (isLast, phase, next) →
      Moves data room ⟨position, false, .header, output⟩ ⟨next, isLast, phase, output⟩
  | endStored {position : Nat} {isLast : Bool} {output : Bytes} :
      Moves data room ⟨position, isLast, .stored 0, output⟩ ⟨position, isLast, .header, output⟩
  | store {position left count : Nat} {isLast : Bool} {output : Bytes} :
      min (allowed room output.size left) (data.size - position / 8) = count → 0 < count →
      Moves data room ⟨position, isLast, .stored left, output⟩
        ⟨8 * (position / 8 + count), isLast, .stored (left - count),
          output ++ data.extract (position / 8) (position / 8 + count)⟩
  | item {position next : Nat} {isLast : Bool} {codes : BlockCodes} {phase : Phase}
      {output : Bytes} :
      readItem data codes position = .ok (phase, next) →
      Moves data room ⟨position, isLast, .item codes, output⟩ ⟨next, isLast, phase, output⟩
  | literal {position : Nat} {isLast : Bool} {codes : BlockCodes} {b : UInt8} {output : Bytes} :
      0 < allowed room output.size 1 →
      Moves data room ⟨position, isLast, .literal codes b, output⟩
        ⟨position, isLast, .item codes, output.push b⟩
  | copy {position length distance : Nat} {isLast : Bool} {codes : BlockCodes} {output : Bytes} :
      allowed room output.size length = length → 0 < length → distance ≤ output.size →
      Moves data room ⟨position, isLast, .copy codes length distance, output⟩
        ⟨position, isLast, .item codes, copyBack length distance output⟩
  | copyPart {position length distance count : Nat} {isLast : Bool} {codes : BlockCodes}
      {output : Bytes} :
      allowed room output.size length = count → 0 < count → count < length →
      distance ≤ output.size →
      Moves data room ⟨position, isLast, .copy codes length distance, output⟩
        ⟨position, isLast, .copy codes (length - count) distance, copyBack count distance output⟩

variable {data part content : Bytes} {room : Option Nat} {s t : Inflater} {pause : Pause}

/-- A step that does not pause is one of the moves. -/
theorem moves_of_step (h : s.step data room = (t, none)) : Moves data room s t := by
  obtain ⟨position, isLast, phase, output⟩ := s
  unfold step at h
  cases phase with
  | finished => exact nomatch h
  | header =>
    dsimp only at h
    split at h
    · next hlast =>
      subst hlast
      obtain rfl := (Prod.mk.inj h).1
      exact .finish
    · next hlast =>
      rw [Bool.not_eq_true] at hlast
      subst hlast
      split at h
      · exact nomatch h
      · next hread =>
        obtain rfl := (Prod.mk.inj h).1
        exact .header hread
  | stored left =>
    dsimp only at h
    split at h
    · next hleft =>
      subst hleft
      obtain rfl := (Prod.mk.inj h).1
      exact .endStored
    · split at h
      · exact nomatch h
      · next hcount =>
        obtain rfl := (Prod.mk.inj h).1
        exact .store rfl (Nat.pos_of_ne_zero hcount)
  | item codes =>
    dsimp only at h
    split at h
    · exact nomatch h
    · next hread =>
      obtain rfl := (Prod.mk.inj h).1
      exact .item hread
  | literal codes b =>
    dsimp only at h
    split at h
    · exact nomatch h
    · next hroom =>
      obtain rfl := (Prod.mk.inj h).1
      exact .literal (Nat.pos_of_ne_zero hroom)
  | copy codes length distance =>
    dsimp only at h
    split at h
    · exact nomatch h
    · next hcount =>
      split at h
      · exact nomatch h
      · next hdistance =>
        obtain rfl := (Prod.mk.inj h).1
        have hle := allowed_le room output.size length
        dsimp only [emit]
        split
        · next hall =>
          rw [hall]
          exact .copy hall (by omega) (by omega)
        · exact .copyPart rfl (by omega) (by omega) (by omega)

/-- Each of the moves is the step that is made. -/
theorem step_of_moves (h : Moves data room s t) : s.step data room = (t, none) := by
  cases h with
  | finish => rfl
  | header hread =>
    unfold step
    dsimp only
    rw [if_neg Bool.false_ne_true, hread]
  | endStored => rfl
  | store hcount hpos =>
    have hle := le_of_min_allowed hcount
    unfold step
    dsimp only
    rw [hcount, if_neg (by omega), if_neg (by omega)]
    rfl
  | item hread =>
    unfold step
    dsimp only
    rw [hread]
  | literal hroom =>
    unfold step
    dsimp only
    rw [if_neg (by omega)]
    rfl
  | copy hall hpos hdistance =>
    unfold step
    dsimp only
    rw [hall, if_neg (by omega), if_neg (by omega), if_pos rfl]
    rfl
  | copyPart hcount hpos hlt hdistance =>
    unfold step
    dsimp only
    rw [hcount, if_neg (by omega), if_neg (by omega), if_neg (by omega)]
    rfl

/-- A move only adds to the output. -/
theorem Moves.startsWith (h : Moves data room s t) : t.output.StartsWith s.output := by
  cases h with
  | finish | header _ | endStored | item _ => exact .refl _
  | store _ _ => exact Bytes.startsWith_append _ _
  | literal _ => exact startsWith_push _ _
  | copy _ _ _ | copyPart _ _ _ _ => exact startsWith_copyBack _ _ _

/-! ## Pauses -/

/-- Why a step is a pause. -/
inductive Stuck (data : Bytes) (room : Option Nat) : Inflater → Pause → Prop
  | finished {position : Nat} {isLast : Bool} {output : Bytes} :
      Stuck data room ⟨position, isLast, .finished, output⟩ .finished
  | header {position : Nat} {output : Bytes} {stop : Stop} :
      readHeader data position = .error stop →
      Stuck data room ⟨position, false, .header, output⟩ stop.pause
  | storedInput {position left : Nat} {isLast : Bool} {output : Bytes} :
      left ≠ 0 → data.size ≤ position / 8 →
      Stuck data room ⟨position, isLast, .stored left, output⟩ .needsInput
  | storedRoom {position left : Nat} {isLast : Bool} {output : Bytes} :
      left ≠ 0 → allowed room output.size left = 0 →
      Stuck data room ⟨position, isLast, .stored left, output⟩ .needsRoom
  | item {position : Nat} {isLast : Bool} {codes : BlockCodes} {output : Bytes} {stop : Stop} :
      readItem data codes position = .error stop →
      Stuck data room ⟨position, isLast, .item codes, output⟩ stop.pause
  | literal {position : Nat} {isLast : Bool} {codes : BlockCodes} {b : UInt8} {output : Bytes} :
      allowed room output.size 1 = 0 →
      Stuck data room ⟨position, isLast, .literal codes b, output⟩ .needsRoom
  | copyRoom {position length distance : Nat} {isLast : Bool} {codes : BlockCodes}
      {output : Bytes} :
      allowed room output.size length = 0 →
      Stuck data room ⟨position, isLast, .copy codes length distance, output⟩ .needsRoom
  | copyTooFar {position length distance : Nat} {isLast : Bool} {codes : BlockCodes}
      {output : Bytes} :
      output.size < distance →
      Stuck data room ⟨position, isLast, .copy codes length distance, output⟩
        (.corrupt .distanceTooFar)

/-- At a pause an inflater stays as it is. -/
theorem stuck_of_step (h : s.step data room = (t, some pause)) :
    t = s ∧ Stuck data room s pause := by
  have hstay {why : Pause} (h : (s, some why) = (t, some pause))
      (hstuck : Stuck data room s why) : t = s ∧ Stuck data room s pause := by
    obtain ⟨rfl, hwhy⟩ := Prod.mk.inj h
    exact ⟨rfl, Option.some.inj hwhy ▸ hstuck⟩
  obtain ⟨position, isLast, phase, output⟩ := s
  unfold step at h
  cases phase with
  | finished => exact hstay h .finished
  | header =>
    dsimp only at h
    split at h
    · exact nomatch h
    · next hlast =>
      rw [Bool.not_eq_true] at hlast
      subst hlast
      split at h
      · next hread => exact hstay h (.header hread)
      · exact nomatch h
  | stored left =>
    dsimp only at h
    split at h
    · exact nomatch h
    · next hleft =>
      split at h
      · next hcount =>
        refine hstay h ?_
        split
        · next hend => exact .storedInput hleft hend
        · next hend => exact .storedRoom hleft (by omega)
      · exact nomatch h
  | item codes =>
    dsimp only at h
    split at h
    · next hread => exact hstay h (.item hread)
    · exact nomatch h
  | literal codes b =>
    dsimp only at h
    split at h
    · next hnone => exact hstay h (.literal hnone)
    · exact nomatch h
  | copy codes length distance =>
    dsimp only at h
    split at h
    · next hnone => exact hstay h (.copyRoom hnone)
    · split at h
      · next hfar => exact hstay h (.copyTooFar hfar)
      · exact nomatch h

/-! ## On the way to the content -/

namespace Yields

/-- What has been put out on the way to the content is its beginning. -/
theorem startsWith (hs : s.Yields data content) : content.StartsWith s.output := by
  induction hs with
  | done _ houtput =>
    rw [houtput]
    exact .refl content
  | step hstep _ ih => exact ih.trans (moves_of_step hstep).startsWith

/-- On the way to the content there is a move, and it stays on the way. -/
theorem exists_move (hs : s.Yields data content) (hphase : s.phase ≠ .finished) :
    ∃ t, Moves data none s t ∧ t.Yields data content := by
  cases hs with
  | done hfinished => exact absurd hfinished hphase
  | step hstep ht => exact ⟨_, moves_of_step hstep, ht⟩

/-- At the end all of the content has been put out. -/
theorem output_eq (hs : s.Yields data content) (hphase : s.phase = .finished) :
    s.output = content := by
  cases hs with
  | done _ houtput => exact houtput
  | step hstep _ =>
    unfold Inflater.step at hstep
    rw [hphase] at hstep
    exact nomatch hstep

/-- What is copied from the stored bytes of the part is the first of what is copied from the whole,
and the rest of that is still to be copied then. -/
theorem of_store {position left count : Nat} {isLast : Bool} {output : Bytes}
    (h : data.StartsWith part)
    (hs : Yields data content ⟨position, isLast, .stored left, output⟩)
    (hcount : min (allowed room output.size left) (part.size - position / 8) = count)
    (hpos : 0 < count) :
    Yields data content ⟨8 * (position / 8 + count), isLast, .stored (left - count),
      output ++ part.extract (position / 8) (position / 8 + count)⟩ := by
  have hsize := h.size_le
  have hle := le_of_min_allowed hcount
  have hpiece : part.extract (position / 8) (position / 8 + count) =
      data.extract (position / 8) (position / 8 + count) :=
    (h.extract_eq (by omega)).symm
  rw [hpiece]
  obtain ⟨u, hfull, hu⟩ := hs.exists_move nofun
  cases hfull with
  | endStored => omega
  | @store _ _ all _ _ hall hallPos =>
    change min left (data.size - position / 8) = all at hall
    by_cases hsame : count = all
    · rw [hsame]
      exact hu
    · -- The move with all bytes copies the rest as well.
      have hrest : min (left - count) (data.size - 8 * (position / 8 + count) / 8) =
          all - count := by omega
      refine .step (step_of_moves (.store hrest (by omega))) ?_
      have hstart : 8 * (position / 8 + count) / 8 = position / 8 + count := by omega
      have hstop : position / 8 + count + (all - count) = position / 8 + all := by omega
      have hleft : left - count - (all - count) = left - all := by omega
      rw [hstart, hstop, hleft, Array.append_assoc, Array.extract_append_extract,
        Nat.min_eq_left (Nat.le_add_right _ _), Nat.max_eq_right (by omega)]
      exact hu

/-- A step with a part of the bytes and some room stays on the way to the content. Either it is the
step that is made with all bytes and all room, or it is a part of that one. -/
theorem of_move (h : data.StartsWith part) (hs : s.Yields data content)
    (hmove : Moves part room s t) : t.Yields data content := by
  obtain ⟨u, hfull, hu⟩ := hs.exists_move (by cases hmove <;> exact nofun)
  cases hmove with
  | finish =>
    cases hfull
    exact hu
  | @header position _ _ _ _ hread =>
    rcases foretells_readHeader h position with hshort | ⟨hsame, -⟩
    · rw [hshort] at hread
      exact nomatch hread
    · cases hfull with
      | header hreadFull =>
        rw [← hsame, hread] at hreadFull
        cases hreadFull
        exact hu
  | endStored =>
    cases hfull with
    | endStored => exact hu
    | store hcount hpos =>
      have hle := le_of_min_allowed hcount
      omega
  | store hcount hpos => exact hs.of_store h hcount hpos
  | @item position _ _ codes _ _ hread =>
    rcases foretells_readItem h codes position with hshort | ⟨hsame, -⟩
    · rw [hshort] at hread
      exact nomatch hread
    · cases hfull with
      | item hreadFull =>
        rw [← hsame, hread] at hreadFull
        cases hreadFull
        exact hu
  | literal hroom =>
    cases hfull
    exact hu
  | copy hall hpos hdistance =>
    cases hfull with
    | copy => exact hu
    | copyPart hcount _ hlt _ => exact absurd hcount (Nat.ne_of_gt hlt)
  | @copyPart position length distance count isLast codes output hcount hpos hlt hdistance =>
    cases hfull with
    | copyPart hcount _ hlt _ => exact absurd hcount (Nat.ne_of_gt hlt)
    | copy =>
      -- The move with all room copies the rest as well.
      have hsize := size_copyBack count distance output
      refine .step (step_of_moves (.copy rfl (by omega) (by omega))) ?_
      rw [← copyBack_add, Nat.add_sub_cancel' (Nat.le_of_lt hlt)]
      exact hu

end Yields

/-- What is lacking where an inflater on the way to the content pauses with a part of the bytes. It
is nothing if all of the content has been put out. -/
inductive Lacks (data part content : Bytes) (room : Option Nat) (s : Inflater) : Pause → Prop
  | input : part.size < data.size → Lacks data part content room s .needsInput
  | room {size : Nat} : room = some size → size ≤ s.output.size →
      Lacks data part content room s .needsRoom
  | nothing : s.output = content → Lacks data part content room s .finished

/-- On the way to the content no fault is met. -/
theorem Yields.of_pause (h : data.StartsWith part) (hs : s.Yields data content)
    (hstep : s.step part room = (t, some pause)) :
    t = s ∧ Lacks data part content room s pause := by
  obtain ⟨rfl, hstuck⟩ := stuck_of_step hstep
  refine ⟨rfl, ?_⟩
  by_cases hphase : t.phase = .finished
  · have hall := hs.output_eq hphase
    cases hstuck with
    | finished => exact .nothing hall
    | _ => exact nomatch hphase
  obtain ⟨u, hfull, -⟩ := hs.exists_move hphase
  cases hfull with
  | finish => exact nomatch hstuck
  | @header position _ _ _ _ hreadFull =>
    cases hstuck with
    | header hread =>
      obtain ⟨rfl, hsize⟩ :=
        (foretells_readHeader h position).runs_out (readHeader · position) h hreadFull hread
      exact .input hsize
  | endStored =>
    cases hstuck with
    | storedInput hleft _ | storedRoom hleft _ => exact absurd rfl hleft
  | store hcount hpos =>
    cases hstuck with
    | storedInput _ hend => exact .input (by omega)
    | storedRoom hleft hnone =>
      obtain ⟨size, hroom, hfits⟩ := exists_room_of_allowed_eq_zero hleft hnone
      exact .room hroom hfits
  | @item position _ _ codes _ _ hreadFull =>
    cases hstuck with
    | item hread =>
      obtain ⟨rfl, hsize⟩ :=
        (foretells_readItem h codes position).runs_out (readItem · codes position) h hreadFull hread
      exact .input hsize
  | literal _ =>
    cases hstuck with
    | literal hnone =>
      obtain ⟨size, hroom, hfits⟩ := exists_room_of_allowed_eq_zero Nat.one_ne_zero hnone
      exact .room hroom hfits
  | copy _ hpos hdistance =>
    cases hstuck with
    | copyRoom hnone =>
      obtain ⟨size, hroom, hfits⟩ := exists_room_of_allowed_eq_zero (Nat.ne_of_gt hpos) hnone
      exact .room hroom hfits
    | copyTooFar hfar => exact absurd hdistance (Nat.not_le.mpr hfar)
  | copyPart hcount _ hlt _ => exact absurd hcount (Nat.ne_of_gt hlt)

end Inflater

end DexListing.Zip
