import DexListing.Proofs.Zip.Inflation
import DexListing.Zip.Content

/-!
# The content of a member in rounds

The data of a member are taken in and put out in pieces. With the recorded sizes the content comes
out as a whole all the same, whatever its length (`contentOfData_eq`). The limits on steps and on
rounds are never reached: a step takes a bit or comes right after one that does
(`Inflater.budget`), and a round takes in bytes, or puts some out, or looks at the last ones taken
in (`roundsLeft`).
-/

set_option autoImplicit false

namespace DexListing.Zip

/-! ## Steps until a pause -/

/-- How many steps can be made before the next bit is taken. -/
def Phase.weight : Phase → Nat
  | finished => 0
  | header | item _ => 1
  | stored _ | literal _ _ | copy _ _ _ => 2

/-- A phase counts for two steps at most. -/
theorem Phase.weight_le (phase : Phase) : phase.weight ≤ 2 := by
  cases phase <;> simp only [weight] <;> omega

namespace Inflater

/-- A bound on the steps that can be made before the bits end. -/
def budget (data : Bytes) (s : Inflater) : Nat :=
  2 * (8 * data.size - s.position) + s.phase.weight

variable {data part content : Bytes} {room : Option Nat} {s t : Inflater}

/-- The steps that are left are bounded by the bits of the data. -/
theorem budget_le (data : Bytes) (s : Inflater) : s.budget data ≤ 16 * data.size + 2 := by
  have hweight := s.phase.weight_le
  unfold budget
  omega

/-- A move uses up some of the budget, except for a part of a copy, which uses up the room. -/
theorem Moves.budget_lt_or_pause (h : Moves data room s t) :
    t.budget data < s.budget data ∨ t.step data room = (t, some .needsRoom) := by
  cases h with
  | finish => exact Or.inl (Nat.lt_succ_self _)
  | @header position next _ phase _ hread =>
    obtain ⟨hnext, hend⟩ := lt_of_readHeader hread
    have hweight := phase.weight_le
    refine Or.inl ?_
    change 2 * (8 * data.size - next) + phase.weight < 2 * (8 * data.size - position) + 1
    omega
  | endStored => exact Or.inl (Nat.lt_succ_self _)
  | store hcount hpos =>
    refine Or.inl ?_
    simp only [budget, Phase.weight]
    omega
  | @item position next _ _ phase _ hread =>
    obtain ⟨hnext, hend⟩ := lt_of_readItem hread
    have hweight := phase.weight_le
    refine Or.inl ?_
    change 2 * (8 * data.size - next) + phase.weight < 2 * (8 * data.size - position) + 1
    omega
  | literal _ => exact Or.inl (Nat.lt_succ_self _)
  | copy _ _ _ => exact Or.inl (Nat.lt_succ_self _)
  | @copyPart _ length distance count _ _ output hcount hpos hlt hdistance =>
    refine Or.inr ?_
    cases room with
    | none => exact absurd hcount (Nat.ne_of_gt hlt)
    | some size =>
      have hfull : allowed (some size) (copyBack count distance output).size (length - count) =
          0 := by
        have hmin : min length (size - output.size) = count := hcount
        rw [size_copyBack]
        change min (length - count) (size - (output.size + count)) = 0
        omega
      unfold step
      dsimp only
      rw [if_pos hfull]

/-- With steps enough an inflater on the way to the content goes on until something is lacking. -/
theorem Yields.steps (h : data.StartsWith part) (hs : s.Yields data content) {limit : Nat}
    (hlimit : s.budget part + 1 < limit) :
    ∃ t pause, Inflater.steps part room limit s = (t, pause) ∧ t.Yields data content ∧
      t.output.StartsWith s.output ∧ Lacks data part content room t pause := by
  induction limit generalizing s with
  | zero => exact nomatch hlimit
  | succ limit ih =>
    unfold Inflater.steps
    rcases hstep : s.step part room with ⟨t, _ | pause⟩
    · have hmove := moves_of_step hstep
      have ht := hs.of_move h hmove
      rcases hmove.budget_lt_or_pause with hless | hpause
      · obtain ⟨u, pause, hsteps, hu, hgrows, hlacks⟩ := ih ht (by omega)
        exact ⟨u, pause, hsteps, hu, hgrows.trans hmove.startsWith, hlacks⟩
      · cases limit with
        | zero => omega
        | succ limit =>
          refine ⟨t, .needsRoom, ?_, ht, hmove.startsWith, (ht.of_pause h hpause).2⟩
          dsimp only
          unfold Inflater.steps
          rw [hpause]
    · obtain ⟨rfl, hlacks⟩ := hs.of_pause h hstep
      exact ⟨t, pause, rfl, hs, .refl _, hlacks⟩

/-- The same for an inflater that goes on as far as it can. -/
theorem Yields.advance (h : data.StartsWith part) (hs : s.Yields data content)
    (room : Option Nat) :
    ∃ t pause, s.advance part room = (t, pause) ∧ t.Yields data content ∧
      t.output.StartsWith s.output ∧ Lacks data part content room t pause := by
  have hbudget := s.budget_le part
  exact hs.steps h (by omega)

/-- Where all of the content has been put out nothing more comes. -/
theorem Yields.advance_output (h : data.StartsWith part) (hs : s.Yields data content)
    (hall : s.output = content) (room : Option Nat) :
    (s.advance part room).1.output = content := by
  obtain ⟨t, pause, hadvance, ht, hgrows, -⟩ := hs.advance h room
  rw [hadvance]
  exact ht.startsWith.eq_of_size_le (hall ▸ hgrows.size_le)

/-- With all bytes and all room everything comes. -/
theorem Yields.advance_all (hs : s.Yields data content) :
    (s.advance data none).1.output = content := by
  obtain ⟨t, pause, hadvance, -, -, hlacks⟩ := hs.advance (.refl data) none
  rw [hadvance]
  cases hlacks with
  | input hless => exact absurd hless (Nat.lt_irrefl _)
  | room hroom _ => exact nomatch hroom
  | nothing hall => exact hall

end Inflater

/-! ## Rounds -/

/-- A bound on the rounds that are left: on the bytes to be taken in and to be put out, and one more
if there are bytes that have been taken in and not looked at. -/
def roundsLeft (data content : Bytes) (taken unread : Nat) (s : Inflater) : Nat :=
  data.size - taken + (content.size - s.output.size) + min unread 1

/-- A round after which something is lacking leaves fewer rounds. -/
theorem roundsLeft_lt {data given content : Bytes} {taken takenNow unread : Nat} {s t : Inflater}
    {pause : Pause} (ht : t.Yields data content) (hgrows : t.output.StartsWith s.output)
    (hlacks : Inflater.Lacks data given content (some (s.output.size + pieceSize)) t pause)
    (hpause : pause ≠ .finished) (hgiven : given.size = min takenNow data.size)
    (htaken : takenNow = if unread < pieceSize - s.output.size % pieceSize
      then min (taken + pieceSize) data.size else taken) :
    roundsLeft data content takenNow (t.unread given pause) t <
      roundsLeft data content taken unread s := by
  have hmore := hgrows.size_le
  have hwithin := ht.startsWith.size_le
  have hpiece : pieceSize = 4096 := rfl
  unfold roundsLeft
  cases hlacks with
  | nothing _ => exact absurd rfl hpause
  | input hless =>
    have hlooked : t.unread given .needsInput = 0 := rfl
    rw [hlooked]
    split at htaken
    · -- More bytes have been taken in: all of them were not there yet.
      omega
    · -- No more have been taken in, since some had not been looked at.
      have hmod := Nat.mod_lt s.output.size (show 0 < pieceSize by decide)
      omega
  | room hroom hfull =>
    -- A whole piece has been put out.
    obtain rfl := Option.some.inj hroom
    split at htaken
    · omega
    · omega

/-- In rounds an inflater on the way to the content puts out all of it. -/
theorem inflateRounds_eq {data content : Bytes} {s : Inflater} {limit taken unread : Nat}
    (hs : s.Yields data content) (hlimit : roundsLeft data content taken unread s < limit) :
    inflateRounds ⟨data.size, content.size⟩ data limit taken unread s = .ok content := by
  induction limit generalizing taken unread s with
  | zero => exact nomatch hlimit
  | succ limit ih =>
    unfold inflateRounds
    extract_lets isShort takenNow given
    rw [if_neg (by simp only; omega)]
    have hgiven : data.StartsWith given := data.startsWith_extract takenNow
    have hsize : given.size = min takenNow data.size := by simp [given]
    obtain ⟨t, pause, hadvance, ht, hgrows, hlacks⟩ :=
      hs.advance hgiven (some (s.output.size + pieceSize))
    rw [hadvance]
    split
    · next hcorrupt =>
      obtain ⟨-, rfl⟩ := Prod.mk.inj hcorrupt
      exact nomatch hlacks
    · next heq =>
      obtain ⟨rfl, rfl⟩ := Prod.mk.inj heq
      dsimp only
      split
      · next hend =>
        rcases hend with rfl | ⟨htaken, -⟩
        · cases hlacks with
          | nothing hall => rw [ht.advance_output hgiven hall, Array.extract_size]
        · have hall : given = data := hgiven.eq_of_size_le (by omega)
          rw [hall, ht.advance_all, Array.extract_size]
      · next hend =>
        split
        · next hput => rw [ht.startsWith.eq_of_size_le hput, Array.extract_size]
        · have hless := roundsLeft_lt ht hgrows hlacks (fun h => hend (Or.inl h)) hsize rfl
          exact ih ht (Nat.lt_of_lt_of_le hless (Nat.le_of_lt_succ hlimit))

/-! ## Stored and deflated content -/

/-- The data of a member in a method, stored or deflated, hold some content. -/
def HoldsContent (method : Nat) (data content : Bytes) : Prop :=
  method = 0 ∧ data = content ∨ method = 8 ∧ Deflates data content

/-- With the recorded sizes the content comes out. -/
theorem contentOfData_eq {method : Nat} {data content : Bytes}
    (h : HoldsContent method data content) :
    contentOfData method ⟨data.size, content.size⟩ data = .ok content := by
  rcases h with ⟨rfl, rfl⟩ | ⟨rfl, hdeflates⟩
  · unfold contentOfData storedContent
    dsimp only
    rw [if_neg (by omega), Array.extract_size]
    rfl
  · have hstart : roundsLeft data content 0 0 .start = data.size + content.size := rfl
    exact inflateRounds_eq hdeflates (hstart ▸ Nat.lt_succ_self _)

end DexListing.Zip
