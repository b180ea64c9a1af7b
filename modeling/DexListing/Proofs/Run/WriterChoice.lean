import DexListing.Proofs.Run.Rerun

/-!
# The choice of a writer

A registry finds a registered name under itself unless there is white space around the name, which
is stripped before the name is looked up: then another name is found, or none, if what is left is
registered too or stands for a later name (`Registry.canonicalName?_eq_self_iff`). As the writer of
a run and the default one are looked up by their registered names, a run uses the writer that its
arguments ask for, and without arguments the first one, if the name finds itself
(`CommandLine.writer_of_registered_name`). The first writer need not be the default one
(`Registry.defaultWriter?_of_blank`).
-/

set_option autoImplicit false

namespace DexListing

namespace Registry

variable {r : Registry} {name text : String} {writer : Writer}

/-- A registered name stands for itself when it is looked up: there is no white space around it, or
what is left without it is not registered and the last name with the key of that is this one. -/
def FindsItself (r : Registry) (name : String) : Prop :=
  Text.strip name = name ∨
    Text.strip name ∉ r.names ∧
      (r.names.filter fun other => lookupKey other = lookupKey (Text.strip name)).getLast? =
        some name

/-- The name for a key is the last one that has it. -/
theorem find?_keys (r : Registry) (key : String) :
    OrderedMap.find? r.keys key = (r.names.filter fun name => lookupKey name = key).getLast? := by
  unfold keys
  rw [OrderedMap.find?_ofList, List.filter_map, List.getLast?_map, Option.map_map]
  simp only [Function.comp_def, Option.map_id_fun']
  rfl

/-- A name that is registered is taken as it is; else the last one counts that has the same key. -/
theorem canonicalName?_eq (r : Registry) (text : String) :
    r.canonicalName? text =
      if Text.strip text ∈ r.names then some (Text.strip text)
      else (r.names.filter fun name =>
        lookupKey name = lookupKey (Text.strip text)).getLast? := by
  unfold canonicalName?
  dsimp only
  rw [find?_keys]

/-- What a text stands for is registered. -/
theorem mem_names_of_canonicalName? (h : r.canonicalName? text = some name) : name ∈ r.names := by
  rw [canonicalName?_eq] at h
  split at h
  · next hmem => exact Option.some.inj h ▸ hmem
  · exact List.mem_of_mem_filter (List.mem_of_getLast? h)

/-- A registered name stands for itself, or something is wrong with the white space around it. -/
theorem canonicalName?_eq_self_iff (hname : name ∈ r.names) :
    r.canonicalName? name = some name ↔ r.FindsItself name := by
  rw [canonicalName?_eq]
  unfold FindsItself
  by_cases hstrip : Text.strip name ∈ r.names
  · rw [if_pos hstrip, Option.some_inj]
    simp [hstrip]
  · have hne : Text.strip name ≠ name := fun heq => hstrip (heq.symm ▸ hname)
    rw [if_neg hstrip]
    simp [hstrip, hne]

/-- The writer is the one that is registered under the name found. -/
theorem writer?_of_canonicalName? (h : r.canonicalName? text = some name)
    (hwriter : (name, writer) ∈ r.writers) : r.writer? text = some writer := by
  unfold writer?
  rw [h, Option.bind_some, OrderedMap.find?_of_mem r.nodup hwriter]

/-- The default name is one of those registered. -/
theorem defaultName_mem (r : Registry) : r.defaultName ∈ r.names :=
  List.mem_map_of_mem (List.head_mem r.nonempty)

end Registry

/-! ## Runs -/

/-- The writer that arguments ask for is the one that the value of its option stands for. -/
theorem Scan.writerId_of_parse {registry : Registry} {host : Host} {tokens : List String}
    {config : Config} {entries : List InputEntry} {s : Session}
    (hparse : parse registry (.start host) tokens = (.ok (config, entries), s)) :
    config.writerId =
      ((Arguments.ofTokens tokens).last? .writer).bind registry.canonicalName? := by
  have hresult := parse_eq_failure? registry host tokens
  rw [hparse] at hresult
  dsimp only at hresult
  split at hresult
  · exact nomatch hresult
  · obtain ⟨rfl, -⟩ := Prod.mk.inj (Except.ok.inj hresult)
    rfl

namespace CommandLine

/-- The inputs dumped with a writer, from the session in which the arguments have been scanned. -/
def dumped (config : Config) (entries : List InputEntry) (s : Session) (writer : Writer) :
    Except Failure Unit × List InputResult × Dump :=
  Dump.run config writer Host.openContainer
    (s.forgetEvents.report (.usingWriter writer.title)) entries

/-- The report says what has come of a dump. -/
structure Report.IsOf (report : Report) (result : Except Failure Unit × List InputResult × Dump) :
    Prop where
  status : report.status = 0 ↔ result.1 = .ok ()
  output : report.status = 0 → report.output = result.2.2.console
  host : report.host = result.2.2.session.host

variable {registry : Registry} {host : Host} {tokens : List String} {config : Config}
  {entries : List InputEntry} {s : Session} {name : String} {writer : Writer}

/-- A name that is empty asks for no writer. -/
theorem writerName_of_ne_empty (registry : Registry) (hasked : config.writerId = some name)
    (hname : name ≠ "") : writerName registry config = name := by
  unfold writerName
  rw [hasked]
  exact if_neg hname

/-- A run whose arguments are accepted is the dump with the writer chosen. -/
theorem isOf_dumped
    (hparse : Scan.parse registry (.start host) tokens = (.ok (config, entries), s))
    (hwriter : registry.writer? (writerName registry config) = some writer) :
    (run registry host tokens).IsOf (dumped config entries s writer) := by
  obtain ⟨hstatus, houtput, hhost⟩ := run_of_parse_ok hparse hwriter rfl
  exact ⟨hstatus, fun hends => houtput (hstatus.mp hends), hhost⟩

/-- What a registered name stands for. The name is found exactly if it finds itself. If the first
name does, then the first writer is the default one. What a text stands for is registered, and it
stands for itself if it finds itself. A run whose arguments ask for a writer has the name that the
value of the option stands for. When it is looked up again, it is still this one if it finds itself,
and then the run dumps its inputs with this writer; but an empty name counts as none. -/
theorem writer_of_registered_name (r : Registry) :
    (∀ name ∈ r.names, r.canonicalName? name = some name ↔ r.FindsItself name) ∧
      (r.FindsItself r.defaultName → r.defaultWriter? = some (r.writers.head r.nonempty).2) ∧
      (∀ text name, r.canonicalName? text = some name →
        name ∈ r.names ∧ (r.canonicalName? name = some name ↔ r.FindsItself name)) ∧
      ∀ host tokens config entries s,
        Scan.parse r (.start host) tokens = (.ok (config, entries), s) →
        ∀ name, config.writerId = some name →
          ∃ value writer, (Arguments.ofTokens tokens).last? .writer = some value ∧
            r.canonicalName? value = some name ∧ (name, writer) ∈ r.writers ∧
            r.writer? value = some writer ∧
            (name ≠ "" →
              (r.canonicalName? (writerName r config) = some name ↔ r.FindsItself name) ∧
              (r.FindsItself name → r.writer? (writerName r config) = some writer ∧
                (run r host tokens).IsOf (dumped config entries s writer))) := by
  refine ⟨fun name => Registry.canonicalName?_eq_self_iff, fun hfirst => ?_, fun text name h => ?_,
    fun host tokens config entries s hparse name hasked => ?_⟩
  · exact Registry.writer?_of_canonicalName?
      ((Registry.canonicalName?_eq_self_iff r.defaultName_mem).mpr hfirst)
      (List.head_mem r.nonempty)
  · have hname := Registry.mem_names_of_canonicalName? h
    exact ⟨hname, Registry.canonicalName?_eq_self_iff hname⟩
  · have hvalue := (Scan.writerId_of_parse hparse).symm.trans hasked
    obtain ⟨value, hlast, hfound⟩ := Option.bind_eq_some_iff.mp hvalue
    have hname := Registry.mem_names_of_canonicalName? hfound
    obtain ⟨⟨_, writer⟩, hwriter, rfl⟩ := List.mem_map.mp hname
    refine ⟨value, writer, hlast, hfound, hwriter,
      Registry.writer?_of_canonicalName? hfound hwriter, fun hne => ?_⟩
    have hself := Registry.canonicalName?_eq_self_iff hname
    have hchosen := writerName_of_ne_empty r hasked hne
    refine ⟨hchosen.symm ▸ hself, fun hfinds => ?_⟩
    have hagain : r.writer? (writerName r config) = some writer := by
      rw [hchosen]
      exact Registry.writer?_of_canonicalName? (hself.mpr hfinds) hwriter
    exact ⟨hagain, isOf_dumped hparse hagain⟩

/-- The writer is chosen by its name in lower case. -/
theorem parse_java :
    ∃ config, Scan.parse .standard (.start .withPackage) ["-w", "java", "a.dex"] =
      (.ok (config, [packageEntry]), .start .withPackage) ∧ config.writerId = some "Java" := by
  have hresolve : (Session.start .withPackage).resolve "a.dex" =
      (.ok (some packageEntry), .start .withPackage) := Session.resolve_withPackage rfl
  have happlied : Scan.applyOption .standard .withPackage .start .writer "java" =
      .ok { Scan.start with writerId := some "Java" } := by
    unfold Scan.applyOption
    dsimp only
    rw [show Registry.standard.canonicalName? "java" = some "Java" by decide +kernel]
  have hfed : Scan.feedAll .standard .start (.start .withPackage) ["-w", "java", "a.dex"] =
      (.ok (), { Scan.start with writerId := some "Java", entries := [packageEntry] },
        .start .withPackage) := by
    rw [Scan.feedAll, Scan.feed_dashed rfl _ (by decide),
      show OptionName.ofText? "-w" = some .writer by decide]
    dsimp only
    rw [Scan.feedAll, Scan.feed_value rfl, Session.host_start, happlied]
    dsimp only
    rw [Scan.feedAll, Scan.feed_input rfl _ (by decide),
      Scan.addInput_of_some _ (by rw [hresolve]), hresolve]
    rfl
  unfold Scan.parse
  rw [hfed]
  exact ⟨_, rfl, rfl⟩

/-- With the standard writers, a run that asks for Java in lower case is a dump with the Java
writer. -/
theorem writer_of_registered_name_java :
    let tokens := ["-w", "java", "a.dex"]
    Registry.standard.canonicalName? "Java" = some "Java" ∧
      Registry.standard.defaultWriter? = some .plain ∧
      ∃ config, config.writerId = some "Java" ∧
        Scan.parse .standard (.start .withPackage) tokens =
          (.ok (config, [packageEntry]), .start .withPackage) ∧
        (run .standard .withPackage tokens).IsOf
          (dumped config [packageEntry] (.start .withPackage) .java) := by
  intro tokens
  obtain ⟨hself, hfirst, -, hruns⟩ := writer_of_registered_name .standard
  have hjava : Registry.standard.FindsItself "Java" := .inl (by decide)
  obtain ⟨config, hparse, hasked⟩ := parse_java
  obtain ⟨value, writer, -, -, hwriter, -, hchosen⟩ := hruns _ _ _ _ _ hparse "Java" hasked
  obtain rfl : writer = .java := by simpa [Registry.standard, Writer.title] using hwriter
  exact ⟨(hself "Java" (by decide)).mpr hjava, hfirst (.inl (by decide)), config, hasked, hparse,
    ((hchosen (by decide)).2 hjava).2⟩

end CommandLine

namespace Registry

/-- Writers under names that differ in white space only. -/
def withBlank : Registry where
  writers := [(" Java", .plain), ("Java", .java)]
  nodup := by decide
  nonempty := by decide

/-- The first writer is registered with a blank before its name: its stripped name is that of the
second one. -/
theorem defaultWriter?_of_blank :
    " Java" ∈ withBlank.names ∧ withBlank.canonicalName? " Java" = some "Java" ∧
      (withBlank.writers.head withBlank.nonempty).2 = .plain ∧
      withBlank.defaultWriter? = some .java := by
  decide

end Registry

end DexListing
