import DexListing.Proofs.Bytes.Extension
import DexListing.Zip.Extract

/-!
# Well-formed archives

An archive is a row of members, each with a local header before its data, then a directory with an
entry for each member, and an end record, which a long end record may precede. It may come after
other bytes, and between the members there may be bytes that belong to none. A byte string of this
form is opened as what it is an archive of (`WellFormed.ofBytes_eq`).
-/

set_option autoImplicit false

namespace DexListing.Zip

/-! ## The form of an archive -/

/-- A member in an archive: what is recorded of it, its data and the position of its local header
in the byte string. -/
structure Item where
  title : String
  flags : Nat
  method : Nat
  checksum : Nat
  size : Nat
  attributes : Nat
  data : Bytes
  position : Nat

/-- What the directory says about an item. -/
def Item.member (item : Item) : Member :=
  { recordedName := item.title
    flags := item.flags
    method := item.method
    checksum := item.checksum
    compressedSize := item.data.size
    size := item.size
    attributes := item.attributes
    headerOffset := item.position }

/-- Where the data of an item start: after its local header, the name and the extra records there,
of which the header gives the lengths. -/
def Item.start (data : Bytes) (item : Item) : Nat :=
  item.position + localHeaderSize + data.u2 (item.position + 26) + data.u2 (item.position + 28)

/-- Where the data of an item end. -/
def Item.stop (data : Bytes) (item : Item) : Nat := item.start data + item.data.size

/-- The local header of an item stands at its position, with the title of the item, and its data
come after it. Sizes and checksum need not be in the header: they may stand after the data. -/
structure LocalAt (data : Bytes) (item : Item) : Prop where
  signature : data.u4 item.position = localSignature
  title : memberName (data.u2 (item.position + 6))
    (data.range (item.position + localHeaderSize)
      (item.position + localHeaderSize + data.u2 (item.position + 26))) = .ok item.title
  content : data.extract (item.start data) (item.stop data) = item.data

/-- Two items take up bytes apart from each other. -/
def Item.Apart (data : Bytes) (item other : Item) : Prop :=
  item.stop data ≤ other.position ∨ other.stop data ≤ item.position

/-- Where the directory entry after the one at a position starts. -/
def nextEntry (data : Bytes) (position : Nat) : Nat :=
  position + directoryEntrySize + data.u2 (position + 28) + data.u2 (position + 30) +
    data.u2 (position + 32)

/-- The directory entry of an item stands at a position of an archive that comes after some leading
bytes. The offset that is recorded counts from the start of the archive. -/
structure EntryAt (data : Bytes) (leading position : Nat) (item : Item) : Prop where
  signature : data.u4 position = entrySignature
  version : data.u1 (position + 6) ≤ maxVersion
  flags : data.u2 (position + 8) = item.flags
  method : data.u2 (position + 10) = item.method
  checksum : data.u4 (position + 16) = item.checksum
  attributes : data.u4 (position + 38) = item.attributes
  title : readName data position = .ok item.title
  extent : ∃ offset, readExtent data position = .ok ⟨item.size, item.data.size, offset⟩ ∧
    offset + leading = item.position

/-- Directory entries of items stand one after the other from a position up to another one. -/
inductive EntriesAt (data : Bytes) (leading : Nat) : (position stop : Nat) → List Item → Prop
  | nil {stop : Nat} : EntriesAt data leading stop stop []
  | cons {position stop : Nat} {item : Item} {rest : List Item} :
      EntryAt data leading position item →
      EntriesAt data leading (nextEntry data position) stop rest →
      EntriesAt data leading position stop (item :: rest)

/-- An end record starts at a position: its comment reaches to the end of the byte string. By its
signature it is found from there, so the signature does not occur again if there is a comment. -/
structure EndRecordAt (data : Bytes) (position : Nat) : Prop where
  signature : data.u4 position = endSignature
  comment : position + endRecordSize + data.u2 (position + 20) = data.size
  last : data.u2 (position + 20) = 0 ∨ ∀ other, position < other → data.u4 other ≠ endSignature

/-- A byte string ends with what gives the place of a directory: an end record, or before it a
locator and before that a long end record of the usual size. -/
inductive EndsWith (data : Bytes) : DirectoryPlace → Prop
  | short {position : Nat} : EndRecordAt data position →
      data.u4 (position - locatorSize) ≠ locatorSignature →
      EndsWith data ⟨position, data.u4 (position + 12), data.u4 (position + 16)⟩
  | long {stop : Nat} : data.u4 stop = longEndSignature →
      data.u4 (stop + longEndRecordSize) = locatorSignature →
      data.u4 (stop + longEndRecordSize + 4) = 0 →
      data.u4 (stop + longEndRecordSize + 16) ≤ 1 →
      EndRecordAt data (stop + longEndRecordSize + locatorSize) →
      EndsWith data ⟨stop, data.u8 (stop + 40), data.u8 (stop + 48)⟩

/-- A byte string is an archive of items, listed in the order of its directory. -/
structure WellFormed (data : Bytes) (items : List Item) : Prop where
  directory : ∃ place leading, EndsWith data place ∧
    place.offset + leading + place.size = place.stop ∧
    EntriesAt data leading (place.offset + leading) place.stop items ∧
    ∀ item ∈ items, item.stop data ≤ place.offset + leading
  headers : ∀ item ∈ items, LocalAt data item
  apart : items.Pairwise (Item.Apart data)
  reachable : ∀ item ∈ items, (item.position : Int) ≤ maxFilePosition

/-! ## The end record -/

/-- The last signature of an end record is the one that is found. -/
theorem lastEndSignature?_eq {data : Bytes} {position lowest count : Nat}
    (hsignature : data.u4 position = endSignature)
    (hlast : ∀ other, position < other → data.u4 other ≠ endSignature)
    (hlowest : lowest ≤ position) (hcount : position < lowest + count) :
    lastEndSignature? data lowest count = some position := by
  induction count with
  | zero => omega
  | succ count ih =>
    unfold lastEndSignature?
    by_cases hhere : position = lowest + count
    · rw [if_pos (hhere ▸ hsignature), hhere]
    · rw [if_neg (hlast _ (by omega))]
      exact ih (by omega)

/-- The end record is found where it is. -/
theorem EndRecordAt.endRecord?_eq {data : Bytes} {position : Nat} (h : EndRecordAt data position) :
    endRecord? data = some position := by
  have hcomment := h.comment
  have hlength := data.u2_lt (position + 20)
  have hsize : endRecordSize = 22 := rfl
  unfold endRecord?
  rw [if_neg (by omega)]
  dsimp only
  by_cases hnone : data.u2 (position + 20) = 0
  · have hend : data.size - endRecordSize = position := by omega
    simp [hend, h.signature, hnone]
  · have hlast := h.last.resolve_left hnone
    have hmax : maxCommentSize = 0x10000 := rfl
    rw [if_neg (by simp [hlast (data.size - endRecordSize) (by omega)]),
      lastEndSignature?_eq h.signature hlast (by omega) (by omega)]
    exact if_pos (by omega)

/-- The place of the directory is read from the end record. -/
theorem EndsWith.directoryPlace_eq {data : Bytes} {place : DirectoryPlace}
    (h : EndsWith data place) : directoryPlace data = .ok place := by
  unfold directoryPlace
  cases h with
  | @short position hend hlocator =>
    have hlong : longPlace? data position = .ok none := by
      unfold longPlace?
      rw [if_pos (by simp [hlocator])]
    rw [hend.endRecord?_eq]
    dsimp only
    rw [hlong]
  | @long stop hsignature hlocator hdisk hdisks hend =>
    have hlong : longPlace? data (stop + longEndRecordSize + locatorSize) =
        .ok (some ⟨stop, data.u8 (stop + 40), data.u8 (stop + 48)⟩) := by
      unfold longPlace?
      have h4 : stop + longEndRecordSize + locatorSize - 16 = stop + longEndRecordSize + 4 := rfl
      have h16 : stop + longEndRecordSize + locatorSize - 4 = stop + longEndRecordSize + 16 := rfl
      rw [Nat.add_sub_cancel, h4, h16, Nat.add_sub_cancel, if_neg (by simp [hlocator]),
        if_neg (by simp [hdisk, Nat.not_lt.mpr hdisks]),
        if_neg (by simp only [Nat.not_lt]; omega), if_neg (not_not_intro hsignature)]
    rw [hend.endRecord?_eq]
    dsimp only
    rw [hlong]

/-- The bytes of an end record are there. -/
theorem EndsWith.stop_le {data : Bytes} {place : DirectoryPlace} (h : EndsWith data place) :
    place.stop ≤ data.size := by
  cases h with
  | short hend _ =>
    have hcomment := hend.comment
    dsimp only
    omega
  | long _ _ _ _ hend =>
    have hcomment := hend.comment
    dsimp only
    omega

/-! ## The directory -/

/-- The directory ends after it starts. -/
theorem EntriesAt.le {data : Bytes} {leading position stop : Nat} {items : List Item}
    (h : EntriesAt data leading position stop items) : position ≤ stop := by
  induction h with
  | nil => exact Nat.le_refl _
  | cons _ _ ih =>
    unfold nextEntry at ih
    omega

section Directory

variable {data : Bytes} {start stop position : Nat}

/-- What an entry says does not depend on the bytes outside of the directory. -/
theorem readName_extract (hstop : stop ≤ data.size)
    (hnext : nextEntry data (start + position) ≤ stop) :
    readName (data.extract start stop) position = readName data (start + position) := by
  have hsize : directoryEntrySize = 46 := rfl
  unfold nextEntry at hnext
  unfold readName Bytes.range
  dsimp only
  rw [Bytes.u2_extract hstop (by omega), Bytes.u2_extract hstop (by omega)]
  simp only [← Nat.add_assoc]
  rw [Bytes.extract_extract (by omega)]
  simp only [← Nat.add_assoc]

/-- The extent of a member is read alike in the archive and in its directory. -/
theorem readExtent_extract (hstop : stop ≤ data.size)
    (hnext : nextEntry data (start + position) ≤ stop) :
    readExtent (data.extract start stop) position = readExtent data (start + position) := by
  have hsize : directoryEntrySize = 46 := rfl
  unfold nextEntry at hnext
  unfold readExtent
  dsimp only
  rw [Bytes.u2_extract hstop (by omega), Bytes.u2_extract hstop (by omega),
    Bytes.u4_extract hstop (by omega), Bytes.u4_extract hstop (by omega),
    Bytes.u4_extract hstop (by omega)]
  simp only [← Nat.add_assoc]
  rw [Bytes.extract_extract (by omega)]
  simp only [← Nat.add_assoc]

/-- The entry of an item is read as its member. -/
theorem EntryAt.readEntry_eq {leading : Nat} {item : Item} (hstop : stop ≤ data.size)
    (hnext : nextEntry data (start + position) ≤ stop)
    (h : EntryAt data leading (start + position) item) :
    readEntry (data.extract start stop) leading position = .ok item.member := by
  have hsize : directoryEntrySize = 46 := rfl
  have hentry : start + position + directoryEntrySize ≤ stop := by
    unfold nextEntry at hnext
    omega
  obtain ⟨offset, hextent, hoffset⟩ := h.extent
  have hversion : Bytes.u1 (data.extract start stop) (position + 6) ≤ maxVersion := by
    rw [Bytes.u1_extract hstop (by omega)]
    exact h.version
  unfold readEntry
  rw [readName_extract hstop hnext, h.title]
  dsimp only
  rw [if_neg (Nat.not_lt.mpr hversion), readExtent_extract hstop hnext, hextent]
  dsimp only
  refine congrArg Except.ok ?_
  unfold readMember Item.member
  rw [Bytes.u2_extract hstop (by omega), Bytes.u2_extract hstop (by omega),
    Bytes.u4_extract hstop (by omega), Bytes.u4_extract hstop (by omega)]
  simp only [← Nat.add_assoc, h.flags, h.method, h.checksum, h.attributes, ← hoffset,
    Int.natCast_add]

/-- Entries that stand one after the other are read one after the other. -/
theorem EntriesAt.readMembers_eq {leading : Nat} {items : List Item} (hstop : stop ≤ data.size)
    (h : EntriesAt data leading (start + position) stop items) {limit : Nat}
    (hlimit : stop ≤ start + position + limit) :
    readMembers (data.extract start stop) leading limit position =
      .ok (items.map Item.member) := by
  have hentrySize : directoryEntrySize = 46 := rfl
  induction limit generalizing position items with
  | zero =>
    cases h with
    | nil => rfl
    | cons _ hrest =>
      have hnext := hrest.le
      unfold nextEntry at hnext
      omega
  | succ limit ih =>
    have hsize : Array.size (data.extract start stop) = stop - start := by
      rw [Array.size_extract, Nat.min_eq_left hstop]
    unfold readMembers
    cases items with
    | nil =>
      have hend : stop = start + position := by cases h; rfl
      rw [if_pos (by omega)]
      rfl
    | cons item rest =>
      cases h with
      | cons hentry hrest =>
        have hnext := hrest.le
        have hwithin : start + position + directoryEntrySize ≤ stop := by
          unfold nextEntry at hnext
          omega
        rw [if_neg (by omega), if_neg (by omega), Bytes.u4_extract hstop (by omega),
          if_neg (not_not_intro hentry.signature), hentry.readEntry_eq hstop hnext,
          Bytes.u2_extract hstop (by omega), Bytes.u2_extract hstop (by omega),
          Bytes.u2_extract hstop (by omega)]
        have hthere : nextEntry data (start + position) =
            start + (position + directoryEntrySize + data.u2 (start + (position + 28)) +
              data.u2 (start + (position + 30)) + data.u2 (start + (position + 32))) := by
          unfold nextEntry
          simp only [← Nat.add_assoc]
        dsimp only
        rw [ih (hthere ▸ hrest) (by omega)]
        rfl

/-- A well-formed archive is opened as what it is an archive of. -/
theorem WellFormed.ofBytes_eq {items : List Item} (h : WellFormed data items) :
    ∃ start, Archive.ofBytes data = .ok ⟨data, items.map Item.member, start⟩ ∧
      start ≤ data.size ∧ ∀ item ∈ items, item.stop data ≤ start := by
  obtain ⟨place, leading, hend, hplace, hentries, hbefore⟩ := h.directory
  have hstop := hend.stop_le
  refine ⟨place.offset + leading, ?_, by omega, hbefore⟩
  have hstart : place.stop - place.size = place.offset + leading := by omega
  have hshift : ((place.offset + leading : Nat) : Int) - place.offset = leading := by omega
  have hentries : EntriesAt data leading (place.offset + leading + 0) place.stop items := hentries
  unfold Archive.ofBytes
  rw [hend.directoryPlace_eq]
  dsimp only
  rw [if_neg (by omega), hstart, hshift, hentries.readMembers_eq hstop (by omega)]

end Directory

end DexListing.Zip
