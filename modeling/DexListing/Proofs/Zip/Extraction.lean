import DexListing.Proofs.Zip.Format
import DexListing.Proofs.Zip.Rounds
import Mathlib.Data.List.TakeWhile

/-!
# Extraction from well-formed archives

A member of a well-formed archive is found by its title, whatever stands before it and after it, if
no other member has that title. What is extracted then is its content (`Packs.find_extract`): its
data end before the next member starts, so no bytes of another one come in.
-/

set_option autoImplicit false

namespace DexListing.Zip

/-- An item holds some content: stored or deflated, not encrypted, with the right sizes and the
right checksum. The bits of the flags tell encryption, patched data and strong encryption. -/
structure Item.Holds (item : Item) (content : Bytes) : Prop where
  plain : ∀ bit ∈ [0, 5, 6], item.flags.testBit bit = false
  data : HoldsContent item.method item.data content
  size : item.size = content.size
  checksum : item.checksum = crc32 content

/-! ## The member with a title -/

/-- A title without a zero character is the name it is looked up by. -/
theorem Item.name_eq {item : Item} (hnul : '\x00' ∉ item.title.toList) :
    item.member.name = item.title := by
  have hall : item.title.toList.takeWhile (· ≠ '\x00') = item.title.toList := by
    rw [List.takeWhile_eq_self_iff]
    intro c hc
    exact decide_eq_true fun hzero => hnul (hzero ▸ hc)
  unfold Member.name
  exact (congrArg String.ofList hall).trans String.ofList_toList

/-- Where no member has a name, none is found by it. -/
theorem findMember?_eq_none {name : String} {members : List Member}
    (h : ∀ m ∈ members, m.name ≠ name) (passed : List Member) :
    findMember? name passed members = none := by
  induction members generalizing passed with
  | nil => rfl
  | cons m rest ih =>
    unfold findMember?
    rw [ih (fun other hother => h other (List.mem_cons_of_mem m hother)),
      if_neg (h m List.mem_cons_self)]

/-- The last member with a name is found, with those listed before it. -/
theorem findMember?_eq {name : String} {m : Member} (before : List Member) {after : List Member}
    (hname : m.name = name) (hafter : ∀ other ∈ after, other.name ≠ name)
    (passed : List Member) :
    findMember? name passed (before ++ m :: after) = some (before.reverse ++ passed, m) := by
  induction before generalizing passed with
  | nil =>
    rw [List.nil_append, findMember?, findMember?_eq_none hafter, if_pos hname]
    rfl
  | cons other rest ih =>
    rw [List.cons_append, findMember?, ih, List.reverse_cons, List.append_assoc]
    rfl

/-! ## The data of a member -/

section Member

variable {data : Bytes} {items before after : List Item} {item other : Item}

/-- Items are apart from each other. -/
theorem Item.Apart.symm (h : Item.Apart data item other) : Item.Apart data other item :=
  Or.symm h

/-- Every other item of an archive is apart from an item. -/
theorem WellFormed.apart_of_mem (h : WellFormed data (before ++ item :: after))
    (hother : other ∈ before ++ after) : Item.Apart data item other := by
  obtain ⟨-, hthere, hacross⟩ := List.pairwise_append.mp h.apart
  rcases List.mem_append.mp hother with hbefore | hafter
  · exact (hacross other hbefore item List.mem_cons_self).symm
  · exact (List.pairwise_cons.mp hthere).1 other hafter

/-- What is below all numbers is below the least of them. -/
theorem le_foldl_min {bound first : Int} {rest : List Int} (hfirst : bound ≤ first)
    (hrest : ∀ x ∈ rest, bound ≤ x) : bound ≤ rest.foldl min first := by
  induction rest generalizing first with
  | nil => exact hfirst
  | cons x rest ih =>
    rw [List.foldl_cons]
    refine ih ?_ fun y hy => hrest y (List.mem_cons_of_mem x hy)
    exact Int.le_min.mpr ⟨hfirst, hrest x List.mem_cons_self⟩

/-- An item starts before it ends. -/
theorem Item.position_lt_stop (data : Bytes) (item : Item) : item.position < item.stop data := by
  have hheader : localHeaderSize = 30 := rfl
  unfold stop start
  omega

/-- What starts after an item starts after its data. -/
theorem Item.Apart.stop_le (h : Item.Apart data item other)
    (hlater : item.position < other.position) : item.stop data ≤ other.position := by
  have hother := other.position_lt_stop data
  rcases h with h | h <;> omega

/-- Items that are apart start at different positions. -/
theorem Item.Apart.position_ne (h : Item.Apart data item other) :
    other.position ≠ item.position := by
  have hitem := item.position_lt_stop data
  have hother := other.position_lt_stop data
  rcases h with h | h <;> omega

/-- The data of an item do not pass its limit. -/
theorem Item.stop_le_limit {start : Nat} (hstart : item.stop data ≤ start)
    (hapart : ∀ other ∈ before ++ after, Item.Apart data item other) :
    (item.stop data : Int) ≤
      Archive.limit ⟨data, (before ++ item :: after).map Item.member, start⟩
        (before.map Item.member).reverse item.member := by
  have hdiffers : ¬(before.map Item.member).reverse.any
      (fun other => other.headerOffset = item.member.headerOffset) = true := by
    simp only [List.any_reverse, List.any_map, List.any_eq_true, Function.comp_apply,
      decide_eq_true_eq, not_exists, not_and]
    intro other hother hsame
    exact (hapart other (List.mem_append_left after hother)).position_ne (Int.ofNat.inj hsame)
  have hlater : ∀ x ∈ (((before ++ item :: after).map Item.member).map Member.headerOffset).filter
      (item.member.headerOffset < ·), (item.stop data : Int) ≤ x := by
    intro x hx
    obtain ⟨hx, hless⟩ := List.mem_filter.mp hx
    rw [List.map_map] at hx
    obtain ⟨other, hother, rfl⟩ := List.mem_map.mp hx
    have hless : item.position < other.position := Int.ofNat_lt.mp (of_decide_eq_true hless)
    refine Int.ofNat_le.mpr (Item.Apart.stop_le (hapart other ?_) hless)
    have hne : other ≠ item := by
      rintro rfl
      exact Nat.lt_irrefl _ hless
    rcases List.mem_append.mp hother with hbefore | hthere
    · exact List.mem_append_left after hbefore
    · exact List.mem_append_right before (List.mem_of_ne_of_mem hne hthere)
  unfold Archive.limit
  rw [if_neg hdiffers]
  dsimp only
  split
  · exact Int.ofNat_le.mpr hstart
  · next first rest heq =>
    rw [heq] at hlater
    exact le_foldl_min (hlater first List.mem_cons_self) fun x hx =>
      hlater x (List.mem_cons_of_mem first hx)

/-- The local header of an item that can be reached is at its position. -/
theorem Item.headerPosition_eq (hreachable : (item.position : Int) ≤ maxFilePosition) :
    item.member.headerPosition = .ok item.position := by
  have hoffset : item.member.headerOffset = item.position := rfl
  have hmax : maxFilePosition = 0xFFFFFFFF000 := rfl
  have hbound : offsetBound = 0x8000000000000000 := rfl
  unfold Member.headerPosition
  rw [hoffset, if_neg (by omega), if_neg (by omega), Int.toNat_natCast]

/-- The local header of an item leads to its data. -/
theorem LocalAt.dataStart_eq {a : Archive} {limit : Int} (h : LocalAt a.data item)
    (hplain : ∀ bit ∈ [0, 5, 6], item.flags.testBit bit = false)
    (hreachable : (item.position : Int) ≤ maxFilePosition)
    (hwithin : item.stop a.data ≤ a.data.size) (hlimit : (item.stop a.data : Int) ≤ limit) :
    a.dataStart limit item.member = .ok (item.start a.data) := by
  have hbit (bit : Nat) (hmem : bit ∈ [0, 5, 6]) : ¬item.member.flags.testBit bit = true := by
    rw [Bool.not_eq_true]
    exact hplain bit hmem
  have hstart : item.start a.data = item.position + localHeaderSize +
      a.data.u2 (item.position + 26) + a.data.u2 (item.position + 28) := rfl
  have hstop : item.stop a.data = item.start a.data + item.data.size := rfl
  have hfound : (a.data.range (item.position + localHeaderSize) (item.position + localHeaderSize +
      a.data.u2 (item.position + 26))).length = a.data.u2 (item.position + 26) := by
    unfold Bytes.range
    rw [Array.length_toList, Array.size_extract]
    omega
  have hname : item.member.checkName (a.data.u2 (item.position + 6))
      (a.data.range (item.position + localHeaderSize) (item.position + localHeaderSize +
        a.data.u2 (item.position + 26))) = .ok () := by
    unfold Member.checkName
    rw [h.title]
    exact if_pos rfl
  unfold Archive.dataStart
  rw [item.headerPosition_eq hreachable]
  dsimp only
  unfold Archive.dataStartAfter
  rw [if_neg (by omega), if_neg (not_not_intro h.signature), if_neg (hbit 5 (by decide)),
    if_neg (hbit 6 (by decide))]
  dsimp only
  rw [hfound, hname, ← hstart, Nat.min_eq_left (by omega)]
  have hcompressed : item.member.compressedSize = item.data.size := rfl
  dsimp only
  rw [if_neg (by omega), if_neg (hbit 0 (by decide))]

/-- The data of an item give its content. -/
theorem LocalAt.extract_eq {a : Archive} {earlier : List Member} {content : Bytes}
    (h : LocalAt a.data item) (hitem : item.Holds content)
    (hreachable : (item.position : Int) ≤ maxFilePosition)
    (hwithin : item.stop a.data ≤ a.data.size)
    (hlimit : (item.stop a.data : Int) ≤ a.limit earlier item.member) :
    a.extract earlier item.member = .ok content := by
  have hdata : a.data.extract (item.start a.data)
      (item.start a.data + item.member.compressedSize) = item.data := h.content
  have hcontent : contentOfData item.member.method ⟨item.member.compressedSize, item.member.size⟩
      item.data = .ok content := by
    have hsize : item.member.size = content.size := hitem.size
    rw [hsize]
    exact contentOfData_eq hitem.data
  unfold Archive.extract
  rw [h.dataStart_eq hitem.plain hreachable hwithin hlimit]
  dsimp only
  rw [hdata, hcontent]
  exact if_pos hitem.checksum.symm

end Member

/-! ## Archives that hold content under a title -/

/-- A byte string is a well-formed archive in which some content has a title; no other member has
it, and the titles of the other members hold no zero character. -/
inductive Packs (data : Bytes) (title : String) (content : Bytes) : Prop
  | intro {before after : List Item} {item : Item} : WellFormed data (before ++ item :: after) →
      item.title = title → item.Holds content →
      (∀ other ∈ before ++ after, other.title ≠ title ∧ '\x00' ∉ other.title.toList) →
      Packs data title content

/-- The member with the title is found and extracted to the content. -/
theorem Packs.find_extract {data content : Bytes} {title : String} (h : Packs data title content)
    (hnul : '\x00' ∉ title.toList) :
    ∃ archive earlier m, Archive.ofBytes data = .ok archive ∧
      findMember? title [] archive.members = some (earlier, m) ∧
      archive.extract earlier m = .ok content := by
  obtain @⟨before, after, item, hformed, htitle, hitem, hothers⟩ := h
  have hmem : item ∈ before ++ item :: after := List.mem_append_right before List.mem_cons_self
  obtain ⟨start, hopen, hsize, hstops⟩ := hformed.ofBytes_eq
  have hstop := hstops item hmem
  refine ⟨_, (before.map Item.member).reverse, item.member, hopen, ?_, ?_⟩
  · have hname : item.member.name = title := (item.name_eq (htitle ▸ hnul)).trans htitle
    have hafter : ∀ m ∈ after.map Item.member, m.name ≠ title := by
      intro m hm
      obtain ⟨other, hother, rfl⟩ := List.mem_map.mp hm
      obtain ⟨hdiffers, hnul⟩ := hothers other (List.mem_append_right before hother)
      rw [other.name_eq hnul]
      exact hdiffers
    have hfound := findMember?_eq (before.map Item.member) hname hafter []
    rw [List.append_nil] at hfound
    dsimp only
    rw [List.map_append, List.map_cons, hfound]
  · have hlimit := Item.stop_le_limit hstop fun other hother => hformed.apart_of_mem hother
    exact LocalAt.extract_eq (hformed.headers item hmem) hitem (hformed.reachable item hmem)
      (Nat.le_trans hstop hsize) hlimit

end DexListing.Zip
