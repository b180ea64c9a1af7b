import DexListing.Zip.Lzma

/-!
# The limit of an lzma decoder

An lzma stream does not say in advance how many items it has, and an item may take no whole bit. The
decoder has a limit of items, so that it ends whatever the data are. The room of a coder tells how
far it can go: every bit divides the range, and both parts are smaller than the range, since no
chance is ever zero or one; a byte that is taken scales the range up by less than it counts itself.
So every item lowers the room (`lowers_readItem`), and it is not the limit that ends a stream: with
any greater one it comes to the same (`decodeStream_eq`).
-/

set_option autoImplicit false

namespace DexListing.Zip.Lzma

variable {α β : Type} {data : Bytes}

/-! ## Coders -/

/-- A chance that leaves a part of the range to either bit. As it changes, it does not come closer
to zero or to one than this. -/
structure IsDivided (chance : UInt32) : Prop where
  least : 31 ≤ chance.toNat
  most : chance.toNat ≤ 2017

/-- A coder whose range can be divided between the two bits in every context. -/
structure Coder.Divides (c : Coder) : Prop where
  range : 0x10000 ≤ c.range.toNat
  chance : ∀ context, IsDivided (c.chance context)

/-- How far a coder can still go: as far as its range is large, and for every byte that is left as
far as there are numbers of 32 bits. -/
def Coder.room (data : Bytes) (c : Coder) : Nat :=
  0x100000000 * (data.size - c.position) + c.range.toNat

/-- The parts of a large range are not too small to be scaled up. -/
theorem bound_toNat {range chance : UInt32} (hrange : 0x1000000 ≤ range.toNat)
    (h : IsDivided chance) :
    0x10000 ≤ ((range >>> 11) * chance).toNat ∧
      ((range >>> 11) * chance).toNat + 0x10000 ≤ range.toNat := by
  have hlt := range.toNat_lt
  have hshift : (range >>> 11).toNat = range.toNat / 2048 := by
    simp [UInt32.toNat_shiftRight, Nat.shiftRight_eq_div_pow]
  have hlow : range.toNat / 2048 * 31 ≤ range.toNat / 2048 * chance.toNat :=
    Nat.mul_le_mul_left _ h.least
  have hhigh : range.toNat / 2048 * chance.toNat ≤ range.toNat / 2048 * 2017 :=
    Nat.mul_le_mul_left _ h.most
  have hmul : ((range >>> 11) * chance).toNat = range.toNat / 2048 * chance.toNat := by
    rw [UInt32.toNat_mul, hshift, Nat.mod_eq_of_lt]
    omega
  rw [hmul]
  omega

/-- A chance that becomes greater still leaves a part to the other bit. -/
theorem IsDivided.up {chance : UInt32} (h : IsDivided chance) :
    IsDivided (chance + (allChances - chance) >>> 5) := by
  obtain ⟨hleast, hmost⟩ := h
  have hsub : (allChances - chance).toNat = 2048 - chance.toNat := by
    rw [UInt32.toNat_sub_of_le]
    · rfl
    · rw [UInt32.le_iff_toNat_le]
      exact Nat.le_trans hmost (by decide)
  have hadd : (chance + (allChances - chance) >>> 5).toNat =
      chance.toNat + (2048 - chance.toNat) / 32 := by
    rw [UInt32.toNat_add, UInt32.toNat_shiftRight, hsub, Nat.shiftRight_eq_div_pow]
    simp
    omega
  exact ⟨by omega, by omega⟩

/-- So does a chance that becomes smaller. -/
theorem IsDivided.down {chance : UInt32} (h : IsDivided chance) :
    IsDivided (chance - chance >>> 5) := by
  obtain ⟨hleast, hmost⟩ := h
  have hshift : (chance >>> 5).toNat = chance.toNat / 32 := by
    simp [UInt32.toNat_shiftRight, Nat.shiftRight_eq_div_pow]
  have hsub : (chance - chance >>> 5).toNat = chance.toNat - chance.toNat / 32 := by
    rw [UInt32.toNat_sub_of_le, hshift]
    rw [UInt32.le_iff_toNat_le, hshift]
    omega
  exact ⟨by omega, by omega⟩

/-- A coder divides its range if it has chances of one that did, but for one context. -/
theorem Coder.Divides.set {c : Coder} (h : c.Divides) {range chance : UInt32}
    (hrange : 0x10000 ≤ range.toNat) (hchance : IsDivided chance) (place : UInt32)
    (position context : Nat) :
    Coder.Divides ⟨range, place, position, c.chances.set! context chance⟩ := by
  refine ⟨hrange, fun asked => ?_⟩
  have hasked := h.chance asked
  unfold Coder.chance at hasked ⊢
  rw [Array.getD_eq_getD_getElem?] at hasked
  dsimp only
  rw [Array.set!_eq_setIfInBounds, Array.getD_eq_getD_getElem?, Array.getElem?_setIfInBounds]
  split
  · next heq =>
    split
    · exact hchance
    · next hout =>
      rwa [← heq, Array.getElem?_eq_none (Nat.le_of_not_lt hout)] at hasked
  · exact hasked

/-- A bit that is read in a context leaves less room. -/
theorem Coder.Divides.bit {c : Coder} (h : c.Divides) (hrange : 0x1000000 ≤ c.range.toNat)
    (context : Nat) :
    (c.bit context).2.Divides ∧ (c.bit context).2.room data + 1 ≤ c.room data := by
  have hchance := h.chance context
  obtain ⟨hbound, hrest⟩ := bound_toNat hrange hchance
  have hsub : (c.range - (c.range >>> 11) * c.chance context).toNat =
      c.range.toNat - ((c.range >>> 11) * c.chance context).toNat := by
    refine UInt32.toNat_sub_of_le _ _ ?_
    rw [UInt32.le_iff_toNat_le]
    omega
  unfold Coder.bit
  dsimp only
  split
  · refine ⟨h.set hbound hchance.up _ _ _, ?_⟩
    unfold Coder.room
    dsimp only
    omega
  · refine ⟨h.set (by omega) hchance.down _ _ _, ?_⟩
    unfold Coder.room
    dsimp only
    omega

/-- So does a bit that has even chances. -/
theorem Coder.Divides.evenBit {c : Coder} (h : c.Divides) (hrange : 0x1000000 ≤ c.range.toNat) :
    c.evenBit.2.Divides ∧ c.evenBit.2.room data + 1 ≤ c.room data := by
  have hhalf : (c.range >>> 1).toNat = c.range.toNat / 2 := by
    simp [UInt32.toNat_shiftRight, Nat.shiftRight_eq_div_pow]
  have hnext : ∀ place, Coder.Divides { c with range := c.range >>> 1, place } ∧
      Coder.room data { c with range := c.range >>> 1, place } + 1 ≤ c.room data := by
    intro place
    refine ⟨⟨?_, h.chance⟩, ?_⟩
    · dsimp only
      omega
    · unfold Coder.room
      dsimp only
      omega
  unfold Coder.evenBit
  dsimp only
  split
  · exact hnext _
  · exact hnext _

/-- A byte that is taken scales the range up, and there is no more room than before. -/
theorem Coder.Divides.scaled {c : Coder} (h : c.Divides) (hrange : c.range < 0x1000000)
    (hposition : c.position < data.size) (b : UInt8) :
    (c.scaled b).Divides ∧ 0x1000000 ≤ (c.scaled b).range.toNat ∧
      (c.scaled b).room data ≤ c.room data := by
  have hsmall : c.range.toNat < 0x1000000 := UInt32.lt_iff_toNat_lt.mp hrange
  have hleast := h.range
  have hscaled : (c.scaled b).range.toNat = 256 * c.range.toNat := by
    unfold Coder.scaled
    simp [UInt32.toNat_shiftLeft, Nat.shiftLeft_eq]
    omega
  refine ⟨⟨?_, h.chance⟩, ?_, ?_⟩
  · omega
  · omega
  · unfold Coder.room
    rw [hscaled]
    unfold Coder.scaled
    dsimp only
    omega

/-! ## Readers -/

/-- A reader after which the coder still divides its range, and its room is lower by some amount at
least. -/
def Lowers (data : Bytes) (least : Nat) (x : Reading α) : Prop :=
  ∀ c : Coder, c.Divides → ∀ value next, x c = .ok (value, next) →
    next.Divides ∧ next.room data + least ≤ c.room data

namespace Lowers

variable {least : Nat} {x y : Reading α} {f : α → Reading β}

/-- What is there without reading leaves the room as it is. -/
theorem pure (value : α) : Lowers data 0 (Pure.pure value : Reading α) := by
  intro c hc found next heq
  cases heq
  exact ⟨hc, Nat.le_refl _⟩

/-- Nothing is asked of a reader that halts. -/
theorem throw (halt : Halt) : Lowers data least (throw halt : Reading α) := by
  intro c _ found next heq
  cases heq

/-- A reader that lowers the room lowers it by less. -/
theorem weaken (h : Lowers data least x) : Lowers data 0 x := by
  intro c hc found next heq
  obtain ⟨hnext, hroom⟩ := h c hc found next heq
  exact ⟨hnext, by omega⟩

/-- The first of two readers one after the other may lower the room. -/
theorem bind (h : Lowers data least x) (hthen : ∀ value, Lowers data 0 (f value)) :
    Lowers data least (x >>= f) := by
  intro c hc found last heq
  change Except.bind (x c) _ = _ at heq
  cases hx : x c with
  | error halt =>
    rw [hx] at heq
    cases heq
  | ok first =>
    obtain ⟨value, next⟩ := first
    rw [hx] at heq
    obtain ⟨hnext, hroom⟩ := h c hc value next hx
    obtain ⟨hlast, hmore⟩ := hthen value next hnext found last heq
    exact ⟨hlast, by omega⟩

/-- Of two alternatives the one that is chosen. -/
theorem ite {p : Prop} [Decidable p] (hx : Lowers data least x) (hy : Lowers data least y) :
    Lowers data least (if p then x else y) := by
  split
  · exact hx
  · exact hy

end Lowers

/-- What a coder comes to when its range is to be large. -/
theorem normalize_eq (c : Coder) :
    normalize data c =
      if c.range < 0x1000000 then
        match data[c.position]? with
        | none => .error .needsInput
        | some b => .ok ((), c.scaled b)
      else .ok ((), c) := by
  unfold normalize
  change (if c.range < 0x1000000 then _ else _ : Reading Unit) c = _
  split
  · cases data[c.position]? with
    | none => rfl
    | some b => rfl
  · rfl

/-- A range is large after this, and there is no more room than before. -/
theorem normalize_ok {c next : Coder} (hc : c.Divides) {value : Unit}
    (heq : normalize data c = .ok (value, next)) :
    next.Divides ∧ 0x1000000 ≤ next.range.toNat ∧ next.room data ≤ c.room data := by
  rw [normalize_eq] at heq
  split at heq
  · next hsmall =>
    split at heq
    · cases heq
    · next b hb =>
      cases heq
      obtain ⟨hposition, -⟩ := Array.getElem?_eq_some_iff.mp hb
      exact hc.scaled hsmall hposition b
  · next hlarge =>
    cases heq
    refine ⟨hc, ?_, Nat.le_refl _⟩
    exact Nat.le_of_not_lt fun hlt => hlarge (UInt32.lt_iff_toNat_lt.mpr hlt)

/-- A large range does not raise the room. -/
theorem lowers_normalize : Lowers data 0 (normalize data) := by
  intro c hc value next heq
  obtain ⟨hnext, -, hroom⟩ := normalize_ok hc heq
  exact ⟨hnext, hroom⟩

/-- Nor does looking at the coder. -/
theorem lowers_get : Lowers data 0 (get : Reading Coder) := by
  intro c hc value next heq
  cases heq
  exact ⟨hc, Nat.le_refl _⟩

/-- A step of a coder whose range is large lowers the room, if it leaves less. -/
theorem Lowers.normalize_modifyGet {step : Coder → α × Coder}
    (hstep : ∀ c : Coder, c.Divides → 0x1000000 ≤ c.range.toNat →
      (step c).2.Divides ∧ (step c).2.room data + 1 ≤ c.room data) :
    Lowers data 1 (do normalize data; modifyGet step) := by
  intro c hc found last heq
  change Except.bind (normalize data c) _ = _ at heq
  cases hnormal : normalize data c with
  | error halt =>
    rw [hnormal] at heq
    cases heq
  | ok first =>
    obtain ⟨value, next⟩ := first
    rw [hnormal] at heq
    obtain ⟨hnext, hlarge, hroom⟩ := normalize_ok hc hnormal
    obtain ⟨hlast, hless⟩ := hstep next hnext hlarge
    have hfound : step next = (found, last) := Except.ok.inj heq
    rw [hfound] at hlast hless
    exact ⟨hlast, Nat.le_trans hless hroom⟩

/-- A bit that is read in a context lowers the room. -/
theorem lowers_readBit (context : Nat) : Lowers data 1 (readBit data context) :=
  .normalize_modifyGet fun _ hc hlarge => hc.bit hlarge context

/-- So does a bit that has even chances. -/
theorem lowers_readEvenBit : Lowers data 1 (readEvenBit data) :=
  .normalize_modifyGet fun _ hc hlarge => hc.evenBit hlarge

/-- Bits of a number, the highest first, do not raise the room. -/
theorem lowers_readTree (base count node : Nat) :
    Lowers data 0 (readTree data base count node) := by
  induction count generalizing node with
  | zero => exact .pure node
  | succ count ih =>
    unfold readTree
    exact (lowers_readBit _).weaken.bind fun b => ih _

/-- Nor does a number. -/
theorem lowers_readNumber (base count : Nat) : Lowers data 0 (readNumber data base count) :=
  (lowers_readTree base count 1).bind fun _ => .pure _

/-- Bits of a number, the lowest first, do not raise the room. -/
theorem lowers_readUpward (base count node : Nat) :
    Lowers data 0 (readUpward data base count node) := by
  induction count generalizing node with
  | zero => exact .pure 0
  | succ count ih =>
    unfold readUpward
    refine (lowers_readBit _).weaken.bind fun b => ?_
    exact (ih _).bind fun _ => .pure _

/-- Bits that have even chances do not raise the room. -/
theorem lowers_readEven (count value : Nat) : Lowers data 0 (readEven data count value) := by
  induction count generalizing value with
  | zero => exact .pure value
  | succ count ih =>
    unfold readEven
    exact lowers_readEvenBit.weaken.bind fun b => ih _

/-! ## Items -/

/-- The bits of a literal after a copy do not raise the room. -/
theorem lowers_readUnlike (base count node expected alike : Nat) :
    Lowers data 0 (readUnlike data base count node expected alike) := by
  induction count generalizing node expected alike with
  | zero => exact .pure node
  | succ count ih =>
    unfold readUnlike
    exact (lowers_readBit _).weaken.bind fun b => ih _ _ _

/-- A literal does not raise the room. -/
theorem lowers_readLiteral (p : Properties) (d : Decoder) :
    Lowers data 0 (readLiteral data p d) := by
  unfold readLiteral
  dsimp only
  refine .ite ?_ ?_
  · exact (lowers_readTree _ _ _).bind fun node => .pure _
  · exact (lowers_readUnlike _ _ _ _ _).bind fun node => .pure _

/-- Nor does a length. -/
theorem lowers_readLength (base place : Nat) : Lowers data 0 (readLength data base place) := by
  unfold readLength
  refine (lowers_readBit _).weaken.bind fun short => .ite ?_ ?_
  · exact (lowers_readNumber _ _).bind fun _ => .pure _
  · refine (lowers_readBit _).weaken.bind fun medium => .ite ?_ ?_
    · exact (lowers_readNumber _ _).bind fun _ => .pure _
    · exact (lowers_readNumber _ _).bind fun _ => .pure _

/-- Nor does a distance. -/
theorem lowers_readDistance (length : Nat) : Lowers data 0 (readDistance data length) := by
  unfold readDistance
  refine (lowers_readNumber _ _).bind fun symbol => ?_
  refine .ite (.pure _) (.ite ?_ ?_)
  · exact (lowers_readUpward _ _ _).bind fun _ => .pure _
  · refine (lowers_readEven _ _).bind fun high => ?_
    exact (lowers_readUpward _ _ _).bind fun _ => .pure _

/-- Nor does the choice of a distance that has been met. -/
theorem lowers_readKnown (state : Nat) (distances : List Nat) :
    Lowers data 0 (readKnown data state distances) := by
  unfold readKnown
  refine (lowers_readBit _).weaken.bind fun third => .ite (.pure _) ?_
  exact (lowers_readBit _).weaken.bind fun fourth => .ite (.pure _) (.pure _)

/-- Nor does a copy over a new distance. -/
theorem lowers_readNewCopy (p : Properties) (place : Nat) (d : Decoder) :
    Lowers data 0 (readNewCopy data p place d) := by
  unfold readNewCopy
  refine (lowers_readLength _ _).bind fun length => ?_
  refine (lowers_readDistance _).bind fun distance => ?_
  refine .ite ?_ (.ite (.pure _) (.throw _))
  refine lowers_normalize.bind fun _ => ?_
  exact lowers_get.bind fun c => .ite (.pure _) (.throw _)

/-- Nor does a copy over a distance that has been met. -/
theorem lowers_readKnownCopy (place : Nat) (d : Decoder) :
    Lowers data 0 (readKnownCopy data place d) := by
  unfold readKnownCopy
  refine .ite (.throw _) ?_
  refine (lowers_readBit _).weaken.bind fun other => .ite ?_ ?_
  · refine (lowers_readBit _).weaken.bind fun long => .ite (.pure _) ?_
    exact (lowers_readLength _ _).bind fun length => .pure _
  · refine (lowers_readKnown _ _).bind fun distances => ?_
    exact (lowers_readLength _ _).bind fun length => .pure _

/-- An item lowers the room. -/
theorem lowers_readItem (p : Properties) (d : Decoder) : Lowers data 1 (readItem data p d) := by
  unfold readItem
  refine (lowers_readBit _).bind fun isCopy => .ite ?_ ?_
  · exact (lowers_readLiteral p d).bind fun b => .pure _
  · refine (lowers_readBit _).weaken.bind fun isKnown => .ite (lowers_readNewCopy p _ d) ?_
    exact (lowers_readKnownCopy _ d).bind fun d => .pure _

/-! ## The limit -/

/-- Items come to the same with a greater limit, if the limit is greater than the room of the
coder. -/
theorem decodeItems_add {p : Properties} {limit : Nat} (more : Nat) (d : Decoder) {c : Coder}
    (hc : c.Divides) (hlimit : c.room data < limit) :
    decodeItems data p (limit + more) d c = decodeItems data p limit d c := by
  induction limit generalizing d c with
  | zero => omega
  | succ limit ih =>
    rw [Nat.add_right_comm]
    unfold decodeItems
    split
    · rfl
    · rfl
    · next d next hitem =>
      obtain ⟨hnext, hroom⟩ := lowers_readItem p _ c hc _ next hitem
      exact ih d hnext (by omega)

/-- A stream starts with even chances and with room for all bytes that are left. -/
theorem start_ok {p : Properties} {c : Coder} (h : start data p = .ok c) :
    c.Divides ∧ c.room data < data.size <<< 32 := by
  unfold start at h
  split at h
  · cases h
  · split at h
    · cases h
    · next hsize =>
      cases h
      have hrange : (0xFFFFFFFF : UInt32).toNat = 0xFFFFFFFF := rfl
      refine ⟨⟨?_, fun context => ?_⟩, ?_⟩
      · dsimp only
        omega
      · unfold Coder.chance
        rw [Array.getD_eq_getD_getElem?, Array.getElem?_replicate]
        split
        · exact ⟨by decide, by decide⟩
        · exact ⟨by decide, by decide⟩
      · unfold Coder.room
        rw [Nat.shiftLeft_eq]
        dsimp only
        omega

/-- A stream is decoded as with any greater limit: it is not the limit that ends it. -/
theorem decodeStream_eq (data : Bytes) (p : Properties) (more : Nat) :
    decodeStream data p =
      match start data p with
      | .error halt => halt.decoded #[]
      | .ok c => decodeItems data p (data.size <<< 32 + more) ⟨0, [0, 0, 0, 0], #[]⟩ c := by
  unfold decodeStream
  cases hstart : start data p with
  | error halt => rfl
  | ok c =>
    obtain ⟨hc, hroom⟩ := start_ok hstart
    exact (decodeItems_add more _ hc hroom).symm

end DexListing.Zip.Lzma
