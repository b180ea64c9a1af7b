import DexListing.Zip.Extract

/-!
# What reading a member can come to

The data of a member are fed to the decoder of its compression method round by round. Whatever the
method and the data are, this comes to one of three things: content that is not longer than it is
recorded to be, data that are cut short, or a fault that only this method has
(`outcome_contentOfData`). The rounds have room enough to take in all data. What is extracted has
the recorded checksum (`Archive.extract_sound`), but it may be shorter than recorded.

The data of a member may not pass its limit, so they are cut short only in an archive whose
directory puts another member after the end (`Archive.exists_member_of_missingData`).
-/

set_option autoImplicit false

namespace DexListing.Zip

/-- A fault, other than missing data, that the data of a member in a compression method can have. -/
inductive ContentFault.Concerns : ContentFault → Nat → Prop
  | unsupportedMethod {method : Nat} (hother : method ∉ [0, 8, 12, 14]) :
      Concerns .unsupportedMethod method
  | deflate (fault : DeflateFault) : Concerns (.deflate fault) 8
  | bzip2 : Concerns .bzip2 12
  | lzma (fault : LzmaFault) : Concerns (.lzma fault) 14

/-- What reading data of recorded sizes comes to, when the decoder has only certain faults. -/
inductive Outcome (sizes : RecordedSizes) (data : Bytes) (IsFault : ContentFault → Prop) :
    Except ContentFault Bytes → Prop
  | content {content : Bytes} (hsize : content.size ≤ sizes.size) :
      Outcome sizes data IsFault (.ok content)
  | missingData (hshort : data.size < sizes.compressedSize) :
      Outcome sizes data IsFault (.error .missingData)
  | fault {fault : ContentFault} (hfault : IsFault fault) :
      Outcome sizes data IsFault (.error fault)

section Rounds

variable {sizes : RecordedSizes} {data : Bytes} {IsFault : ContentFault → Prop}

/-- What is cut to the recorded size is content. -/
theorem Outcome.extract (content : Bytes) :
    Outcome sizes data IsFault (.ok (content.extract 0 sizes.size)) := by
  refine .content ?_
  rw [Array.size_extract]
  omega

/-- Stored data have no faults. -/
theorem outcome_storedContent : Outcome sizes data IsFault (storedContent sizes data) := by
  unfold storedContent
  split
  · next hmissing => exact .missingData hmissing.1
  · exact .extract data

/-- An inflater has the faults of deflated data. -/
theorem outcome_inflateRounds (hdeflate : ∀ fault, IsFault (.deflate fault))
    {limit taken unread : Nat} {s : Inflater} :
    Outcome sizes data IsFault (inflateRounds sizes data limit taken unread s) := by
  induction limit generalizing taken unread s with
  | zero => exact .extract s.output
  | succ limit ih =>
    unfold inflateRounds
    extract_lets isShort takenNow given
    split
    · next hmissing => exact .missingData (Nat.lt_of_le_of_lt hmissing.2.2 hmissing.2.1)
    · split
      · next fault _ => exact .fault (hdeflate fault)
      · extract_lets unreadNow
        split
        · exact .extract _
        · split
          · exact .extract _
          · exact ih

/-- A decoder that takes in all data has its own faults. A round takes in at least a byte if any is
left, and none follows the one that finds all taken in. -/
theorem outcome_decodeRounds {decode : Bytes → Except ContentFault Decoded}
    (hdecode : ∀ given fault, decode given = .error fault → IsFault fault) {limit taken : Nat}
    (htaken : taken ≤ data.size) (hroom : data.size < limit + taken) :
    Outcome sizes data IsFault (decodeRounds decode sizes data limit taken) := by
  induction limit generalizing taken with
  | zero => omega
  | succ limit ih =>
    unfold decodeRounds
    split
    · next hmissing => exact .missingData (Nat.lt_of_le_of_lt hmissing.2 hmissing.1)
    · next hmore =>
      dsimp only
      split
      · next fault hfault => exact .fault (hdecode _ fault hfault)
      · split
        · exact .extract _
        · next hgoesOn =>
          have hpiece : 0 < pieceSize := by decide
          exact ih (Nat.min_le_right _ _) (by omega)

end Rounds

/-- Reading data in a compression method comes to content that is not too long, to data that are cut
short, or to a fault of this method. -/
theorem outcome_contentOfData (method : Nat) (sizes : RecordedSizes) (data : Bytes) :
    Outcome sizes data (·.Concerns method) (contentOfData method sizes data) := by
  have hroom : data.size < data.size + 2 + 0 := by omega
  unfold contentOfData
  split
  · exact outcome_storedContent
  · exact outcome_inflateRounds .deflate
  · refine outcome_decodeRounds ?_ (Nat.zero_le _) hroom
    intro given fault hfault
    unfold bzip2Decoded at hfault
    split at hfault
    · exact Except.error.inj hfault ▸ .bzip2
    · exact nomatch hfault
  · refine outcome_decodeRounds ?_ (Nat.zero_le _) hroom
    intro given fault hfault
    unfold lzmaDecoded at hfault
    cases hdecode : Lzma.decode given with
    | error found =>
      rw [hdecode] at hfault
      exact Except.error.inj hfault ▸ .lzma found
    | ok decoded =>
      rw [hdecode] at hfault
      exact nomatch hfault
  · next hstored hdeflated hbzip2 hlzma =>
    refine .fault (.unsupportedMethod ?_)
    simp only [List.mem_cons, List.not_mem_nil, or_false, not_or]
    exact ⟨hstored, hdeflated, hbzip2, hlzma⟩

/-- Data are missing only if there are fewer of them than recorded. -/
theorem lt_of_missingData {method : Nat} {sizes : RecordedSizes} {data : Bytes}
    (hmissing : contentOfData method sizes data = .error .missingData) :
    data.size < sizes.compressedSize := by
  have houtcome := outcome_contentOfData method sizes data
  rw [hmissing] at houtcome
  cases houtcome with
  | missingData hshort => exact hshort
  | fault hfault => exact nomatch hfault

/-! ## Members of an archive -/

/-- What gets past a check fails its condition. -/
theorem eq_ok_of_check {α : Type} {c : Prop} [Decidable c] {fault : MemberFault}
    {next : Except MemberFault α} {value : α}
    (h : (if c then .error fault else next) = .ok value) : ¬c ∧ next = .ok value := by
  split at h
  · exact nomatch h
  · next hnot => exact ⟨hnot, h⟩

variable {a : Archive} {earlier : List Member} {m : Member}

/-- The local header of a member is where the directory says. -/
theorem Member.headerOffset_eq {position : Nat} (hposition : m.headerPosition = .ok position) :
    m.headerOffset = position := by
  unfold headerPosition at hposition
  obtain ⟨-, hposition⟩ := eq_ok_of_check hposition
  obtain ⟨hreachable, hposition⟩ := eq_ok_of_check hposition
  have hposition := Except.ok.inj hposition
  omega

/-- Good data of a member start after its header, within the archive, and do not pass the limit. -/
theorem Archive.dataStart_bounds {limit : Int} {start : Nat}
    (hstart : a.dataStart limit m = .ok start) :
    m.headerOffset < start ∧ start ≤ a.data.size ∧ (start : Int) + m.compressedSize ≤ limit := by
  unfold dataStart at hstart
  split at hstart
  · exact nomatch hstart
  · next header hheader =>
    unfold dataStartAfter localHeaderSize at hstart
    obtain ⟨hfits, hstart⟩ := eq_ok_of_check hstart
    obtain ⟨-, hstart⟩ := eq_ok_of_check hstart
    obtain ⟨-, hstart⟩ := eq_ok_of_check hstart
    obtain ⟨-, hstart⟩ := eq_ok_of_check hstart
    dsimp only at hstart
    split at hstart
    · exact nomatch hstart
    · obtain ⟨hlimit, hstart⟩ := eq_ok_of_check hstart
      obtain ⟨-, hstart⟩ := eq_ok_of_check hstart
      have hposition := Member.headerOffset_eq hheader
      have hstart := Except.ok.inj hstart
      omega

/-- The least of some numbers is not above the first of them. -/
theorem foldl_min_le (first : Int) (rest : List Int) : rest.foldl min first ≤ first := by
  induction rest generalizing first with
  | nil => exact Int.le_refl first
  | cons x rest ih => exact Int.le_trans (ih (min first x)) (Int.min_le_left first x)

/-- The end record starts within the archive. -/
theorem endRecord?_le {data : Bytes} {position : Nat} (hfound : endRecord? data = some position) :
    position ≤ data.size := by
  unfold endRecord? at hfound
  split at hfound
  · exact nomatch hfound
  · dsimp only at hfound
    split at hfound
    · exact Option.some.inj hfound ▸ Nat.sub_le data.size endRecordSize
    · split at hfound
      · exact nomatch hfound
      · split at hfound
        · next hfits => exact Option.some.inj hfound ▸ Nat.le_of_add_right_le hfits
        · exact nomatch hfound

/-- What a long end record says is about the bytes before it. -/
theorem longPlace?_stop_le {data : Bytes} {position : Nat} {place : DirectoryPlace}
    (hfound : longPlace? data position = .ok (some place)) : place.stop ≤ position := by
  unfold longPlace? at hfound
  split at hfound
  · exact nomatch hfound
  · split at hfound
    · exact nomatch hfound
    · split at hfound
      · exact nomatch hfound
      · dsimp only at hfound
        split at hfound
        · exact nomatch hfound
        · obtain rfl := Option.some.inj (Except.ok.inj hfound)
          exact Nat.le_trans (Nat.sub_le _ _) (Nat.sub_le _ _)

/-- The directory ends within the archive. -/
theorem directoryPlace_stop_le {data : Bytes} {place : DirectoryPlace}
    (hplace : directoryPlace data = .ok place) : place.stop ≤ data.size := by
  unfold directoryPlace at hplace
  split at hplace
  · exact nomatch hplace
  · next position hfound =>
    have hposition := endRecord?_le hfound
    split at hplace
    · exact nomatch hplace
    · next long hlong =>
      obtain rfl := Except.ok.inj hplace
      exact Nat.le_trans (longPlace?_stop_le hlong) hposition
    · obtain rfl := Except.ok.inj hplace
      exact hposition

/-- An archive is what was opened; its directory starts within it. -/
theorem Archive.directoryStart_le {data : Bytes} (hopen : Archive.ofBytes data = .ok a) :
    a.data = data ∧ a.directoryStart ≤ data.size := by
  unfold ofBytes at hopen
  split at hopen
  · exact nomatch hopen
  · next place hplace =>
    have hstop := directoryPlace_stop_le hplace
    split at hopen
    · exact nomatch hopen
    · dsimp only at hopen
      split at hopen
      · exact nomatch hopen
      · obtain rfl := Except.ok.inj hopen
        exact ⟨rfl, Nat.le_trans (Nat.sub_le place.stop place.size) hstop⟩

/-- The header of a member has no fault of content. -/
theorem Archive.dataStart_ne_content (limit : Int) (fault : ContentFault) :
    a.dataStart limit m ≠ .error (.content fault) := by
  have hname (flags : Nat) (found : List UInt8) :
      m.checkName flags found ≠ .error (.content fault) := by
    fun_cases Member.checkName m flags found <;> simp
  have hposition : m.headerPosition ≠ .error (.content fault) := by
    fun_cases Member.headerPosition m <;> simp
  fun_cases Archive.dataStart a limit m with
  | case1 found hfound => exact fun heq => hposition (hfound.trans heq)
  | case2 header =>
    fun_cases Archive.dataStartAfter a limit m header with
    | case5 _ _ _ _ _ _ found hfound =>
      exact fun heq => hname _ _ (Except.error.inj heq ▸ hfound)
    | _ => simp

/-- What lies between the header of a member and its limit is the start of another member if it is
after the start of the directory. -/
theorem Archive.exists_member_of_lt_limit {position : Int}
    (hheader : m.headerOffset ≤ position) (hdirectory : a.directoryStart ≤ position)
    (hlimit : position < a.limit earlier m) :
    ∃ other ∈ a.members, position < other.headerOffset := by
  unfold limit at hlimit
  split at hlimit
  · omega
  · split at hlimit
    · omega
    · next first rest heq =>
      have hmem : first ∈ (a.members.map Member.headerOffset).filter (m.headerOffset < ·) :=
        heq ▸ List.mem_cons_self
      obtain ⟨other, hother, rfl⟩ := List.mem_map.mp (List.mem_filter.mp hmem).1
      exact ⟨other, hother, Int.lt_of_lt_of_le hlimit (foldl_min_le _ rest)⟩

/-- The data of a member are cut short only if the directory puts another member after the end of
the archive. -/
theorem Archive.exists_member_of_missingData {data : Bytes} (hopen : Archive.ofBytes data = .ok a)
    (hmissing : a.extract earlier m = .error (.content .missingData)) :
    ∃ other ∈ a.members, (data.size : Int) < other.headerOffset := by
  obtain ⟨rfl, hdirectory⟩ := Archive.directoryStart_le hopen
  unfold extract at hmissing
  split at hmissing
  · next fault hfault =>
    exact absurd (Except.error.inj hmissing ▸ hfault) (dataStart_ne_content _ _)
  · next start hstart =>
    obtain ⟨hheader, hwithin, hlimit⟩ := dataStart_bounds hstart
    dsimp only at hmissing
    split at hmissing
    · next fault hcontent =>
      obtain rfl := MemberFault.content.inj (Except.error.inj hmissing)
      have hshort := lt_of_missingData hcontent
      rw [Array.size_extract] at hshort
      dsimp only at hshort
      exact exists_member_of_lt_limit (by omega) (by omega) (Int.lt_of_lt_of_le (by omega) hlimit)
    · split at hmissing
      · exact nomatch hmissing
      · exact nomatch hmissing

/-- What is extracted is not longer than recorded and has the recorded checksum. -/
theorem Archive.extract_sound {content : Bytes} (hextract : a.extract earlier m = .ok content) :
    content.size ≤ m.size ∧ crc32 content = m.checksum := by
  unfold extract at hextract
  split at hextract
  · exact nomatch hextract
  · next start _ =>
    have houtcome := outcome_contentOfData m.method ⟨m.compressedSize, m.size⟩
      (a.data.extract start (start + m.compressedSize))
    dsimp only at hextract
    split at hextract
    · exact nomatch hextract
    · next found hcontent =>
      rw [hcontent] at houtcome
      split at hextract
      · next hsum =>
        obtain rfl := Except.ok.inj hextract
        cases houtcome with
        | content hsize => exact ⟨hsize, hsum⟩
      · exact nomatch hextract

end DexListing.Zip
