import DexListing.Proofs.Run.WriterChoice
import DexListing.Proofs.Text.Spelling

/-!
# Looking up writers by their keys

Where the registered names have different keys, a text stands for the registered name that has its
key, whether the text is a name itself or not (`Registry.lookup_by_key`). The key is that of the
text without the white space around it. As the white space can be stripped from the key as well
(`Registry.lookupKey_strip`), texts with the same key stand for the same name.
-/

set_option autoImplicit false

namespace DexListing.Registry

variable {r : Registry} {name text : String} {writer : Writer}

/-! ## Keys and white space -/

/-- The key of a text in lower case without white space around it has none around it. -/
theorem trimmed_lookupKey (h : Text.Trimmed text) : Text.Trimmed (lookupKey text) := by
  have hkept : ∀ c rest, Text.isSpace c = false →
      (c :: rest).filter (· ≠ ' ') = c :: rest.filter (· ≠ ' ') := by
    intro c rest hc
    refine List.filter_cons_of_pos (decide_eq_true ?_)
    rintro rfl
    exact nomatch hc
  obtain ⟨hhead, hlast⟩ := h.lower
  refine ⟨fun c hc => ?_, fun c hc => ?_⟩
  · rw [lookupKey, String.toList_ofList] at hc
    cases hlower : (Text.lower text).toList with
    | nil =>
      rw [hlower] at hc
      exact nomatch hc
    | cons first rest =>
      have hfirst := hhead first (by simp [hlower])
      rw [hlower, hkept first rest hfirst] at hc
      obtain rfl : first = c := Option.some.inj hc
      exact hfirst
  · rw [lookupKey, String.toList_ofList] at hc
    rcases List.eq_nil_or_concat' (Text.lower text).toList with hnil | ⟨init, last, hlower⟩
    · rw [hnil] at hc
      exact nomatch hc
    · have hlast' := hlast last (by simp [hlower])
      rw [hlower, List.filter_append, hkept last [] hlast', List.filter_nil,
        List.getLast?_concat] at hc
      obtain rfl : last = c := Option.some.inj hc
      exact hlast'

/-- It makes no difference whether white space is stripped from a text or from its key. -/
theorem lookupKey_strip (text : String) :
    lookupKey (Text.strip text) = Text.strip (lookupKey text) := by
  obtain ⟨before, after, hbefore, hafter, htext⟩ := Text.exists_surrounded text
  have hblank : ∀ {s : String}, Text.IsBlank s →
      Text.IsBlank (String.ofList (s.toList.filter (· ≠ ' '))) := by
    intro s hs c hc
    rw [String.toList_ofList] at hc
    exact hs c (List.mem_of_mem_filter hc)
  have hkey : lookupKey text = String.ofList (before.toList.filter (· ≠ ' ')) ++
      lookupKey (Text.strip text) ++ String.ofList (after.toList.filter (· ≠ ' ')) := by
    conv_lhs => rw [htext]
    unfold lookupKey
    rw [Text.lower_surrounded hbefore hafter]
    simp [String.append_assoc]
  rw [hkey, Text.strip_surrounded (hblank hbefore) (hblank hafter),
    (trimmed_lookupKey (Text.trimmed_strip text)).strip_eq]

/-! ## Different keys -/

section DifferentKeys

variable (hkeys : (r.names.map lookupKey).Nodup)

include hkeys

/-- A key stands for the registered name that has it. -/
theorem find?_keys_eq_some_iff {key : String} :
    OrderedMap.find? r.keys key = some name ↔ name ∈ r.names ∧ lookupKey name = key := by
  have hmem : ∀ other, other ∈ r.names.filter (fun other => lookupKey other = key) ↔
      other ∈ r.names ∧ lookupKey other = key := by
    intro other
    rw [List.mem_filter, decide_eq_true_eq]
  rw [find?_keys]
  constructor
  · intro h
    exact (hmem name).mp (List.mem_of_getLast? h)
  · intro h
    have hne := List.ne_nil_of_mem ((hmem name).mpr h)
    obtain ⟨hlast, hkey⟩ := (hmem _).mp (List.getLast_mem hne)
    rw [List.getLast?_eq_some_getLast hne, Option.some_inj]
    exact List.inj_on_of_nodup_map hkeys hlast h.1 (hkey.trans h.2.symm)

/-- Looking for a text among the names first makes no difference. -/
theorem canonicalName?_eq_find?_keys (text : String) :
    r.canonicalName? text = OrderedMap.find? r.keys (lookupKey (Text.strip text)) := by
  unfold canonicalName?
  dsimp only
  split
  · next hmem => exact ((find?_keys_eq_some_iff hkeys).mpr ⟨hmem, rfl⟩).symm
  · rfl

/-- A text stands for the registered name with its key. -/
theorem canonicalName?_eq_some_iff :
    r.canonicalName? text = some name ↔
      name ∈ r.names ∧ lookupKey name = lookupKey (Text.strip text) := by
  rw [canonicalName?_eq_find?_keys hkeys, find?_keys_eq_some_iff hkeys]

/-- It stands for none if no registered name has its key. -/
theorem canonicalName?_eq_none_iff :
    r.canonicalName? text = none ↔
      ∀ name ∈ r.names, lookupKey name ≠ lookupKey (Text.strip text) := by
  rw [Option.eq_none_iff_forall_not_mem]
  constructor
  · intro h name hname hkey
    exact h name ((canonicalName?_eq_some_iff hkeys).mpr ⟨hname, hkey⟩)
  · intro h name hname
    obtain ⟨hmem, hkey⟩ := (canonicalName?_eq_some_iff hkeys).mp hname
    exact h name hmem hkey

end DifferentKeys

/-- The writer of a text is the one registered under the name that the text stands for. -/
theorem writer?_eq_some_iff :
    r.writer? text = some writer ↔
      ∃ name, r.canonicalName? text = some name ∧ (name, writer) ∈ r.writers := by
  constructor
  · intro h
    obtain ⟨name, hname, hfound⟩ := Option.bind_eq_some_iff.mp h
    obtain ⟨⟨_, registered⟩, hmem, rfl⟩ := List.mem_map.mp (mem_names_of_canonicalName? hname)
    rw [OrderedMap.find?_of_mem r.nodup hmem] at hfound
    exact ⟨_, hname, Option.some.inj hfound ▸ hmem⟩
  · rintro ⟨name, hname, hmem⟩
    exact writer?_of_canonicalName? hname hmem

/-- Where the registered names have different keys, a text stands for the registered name that has
the key of the text without white space around it, and for none if there is no such name; then the
writer that is asked for is not found. Looking for the text among the names first makes no
difference, and texts with the same key stand for the same name, whether white space is stripped
from them before or not. The writer of a text is the one registered under the name that it stands
for. -/
theorem lookup_by_key (r : Registry) (hkeys : (r.names.map lookupKey).Nodup) :
    (∀ text name, r.canonicalName? text = some name ↔
      name ∈ r.names ∧ lookupKey name = lookupKey (Text.strip text)) ∧
    (∀ text, (∀ name ∈ r.names, lookupKey name ≠ lookupKey (Text.strip text)) →
      r.canonicalName? text = none ∧ r.writer? text = none ∧
        ∀ host scan, ∃ f, Scan.applyOption r host scan .writer text = .error f ∧
          f.kind? = some .writerResolution ∧
          f.message = "Writer " ++ Text.strip text ++ " not found") ∧
    (∀ text, r.canonicalName? text =
      OrderedMap.find? r.keys (lookupKey (Text.strip text))) ∧
    (∀ text other, lookupKey (Text.strip text) = lookupKey (Text.strip other) ∨
        lookupKey text = lookupKey other →
      r.canonicalName? text = r.canonicalName? other ∧ r.writer? text = r.writer? other) ∧
    ∀ text writer, r.writer? text = some writer ↔
      ∃ name, r.canonicalName? text = some name ∧ (name, writer) ∈ r.writers := by
  refine ⟨fun text name => canonicalName?_eq_some_iff hkeys, fun text hnone => ?_,
    canonicalName?_eq_find?_keys hkeys, fun text other hsame => ?_,
    fun text writer => writer?_eq_some_iff⟩
  · have hname := (canonicalName?_eq_none_iff hkeys).mpr hnone
    refine ⟨hname, ?_, fun host scan => ⟨.configuration (.unknownWriter (Text.strip text)), ?_, rfl,
      rfl⟩⟩
    · unfold writer?
      rw [hname]
      rfl
    · unfold Scan.applyOption
      dsimp only
      rw [hname]
  · have hstripped : lookupKey (Text.strip text) = lookupKey (Text.strip other) := by
      refine hsame.elim id fun hkey => ?_
      rw [lookupKey_strip, lookupKey_strip, hkey]
    have hname : r.canonicalName? text = r.canonicalName? other := by
      rw [canonicalName?_eq_find?_keys hkeys, canonicalName?_eq_find?_keys hkeys, hstripped]
    refine ⟨hname, ?_⟩
    unfold writer?
    rw [hname]

/-- The standard writers have different keys, and a name is found in any spelling but not with a
hyphen for the blank. -/
theorem lookup_by_key_standard :
    (standard.names.map lookupKey).Nodup ∧
      standard.canonicalName? "\tpLaIn  dEX " = some "Plain Dex" ∧
      standard.writer? "\tpLaIn  dEX " = some .plain ∧
      standard.canonicalName? "plain-dex" = none := by
  have hkeys : (standard.names.map lookupKey).Nodup := by decide +kernel
  obtain ⟨hfound, hnone, -, -, hwriter⟩ := lookup_by_key standard hkeys
  have hname := (hfound "\tpLaIn  dEX " "Plain Dex").mpr ⟨by decide, by decide +kernel⟩
  exact ⟨hkeys, hname, (hwriter _ _).mpr ⟨_, hname, by decide⟩,
    (hnone "plain-dex" (by decide +kernel)).1⟩

end DexListing.Registry
