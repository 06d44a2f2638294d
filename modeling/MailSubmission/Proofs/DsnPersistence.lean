import MailSubmission.Dsn

set_option autoImplicit false

/-!
# Notification requests survive their persisted form

The persisted line has no way to write a separator within a field, and none to tell a field that is
set to nothing from one that is not set.  These are the only requests that are not read back as they
were (`Dsn.persisted_form_read_back`).  A line may spell a flag in many ways, but all that is read
from a line is a request that its own line says exactly.
-/

namespace MailSubmission.Dsn

variable {d : Dsn} {line : String}

/-! ## Fields between separators -/

theorem splitFields_eq_splitOn (cs : List Char) : splitFields cs = cs.splitOn separator := by
  induction cs with
  | nil => rfl
  | cons c cs ih =>
    rw [splitFields, List.splitOn_cons_eq_if_modifyHead, ih]
    by_cases hc : c = separator
    · simp [hc]
    · cases hrest : cs.splitOn separator with
      | nil => exact absurd hrest (List.splitOn_ne_nil _ _)
      | cons piece rest => simp [hc]

/-- There is one more field than there are separators. -/
theorem length_splitFields (cs : List Char) :
    (splitFields cs).length = cs.count separator + 1 := by
  induction cs with
  | nil => rfl
  | cons c cs ih =>
    rw [splitFields, List.count_cons]
    by_cases hc : c = separator
    · simp [hc, ih]
    · cases hrest : splitFields cs with
      | nil => simp [hrest] at ih
      | cons piece rest =>
        rw [hrest] at ih
        simp [hc, ← ih]

theorem notMem_of_mem_splitFields {cs piece : List Char} (h : piece ∈ splitFields cs) :
    separator ∉ piece := by
  induction cs generalizing piece with
  | nil =>
    obtain rfl := List.mem_singleton.mp h
    exact List.not_mem_nil
  | cons c cs ih =>
    rw [splitFields] at h
    split at h
    · rcases List.mem_cons.mp h with rfl | hrest
      · exact List.not_mem_nil
      · exact ih hrest
    · rename_i hc
      split at h
      · obtain rfl := List.mem_singleton.mp h
        simpa [eq_comm] using hc
      · rename_i first rest hrest
        rcases List.mem_cons.mp h with rfl | hmem
        · rw [List.mem_cons, not_or]
          exact ⟨Ne.symm hc, ih (hrest ▸ List.mem_cons_self)⟩
        · exact ih (hrest ▸ List.mem_cons_of_mem first hmem)

theorem count_intercalate_add {parts : List (List Char)} (h : parts ≠ []) :
    ([separator].intercalate parts).count separator + 1 =
      parts.flatten.count separator + parts.length := by
  induction parts with
  | nil => exact absurd rfl h
  | cons part rest ih =>
    cases rest with
    | nil => simp
    | cons next rest =>
      have hrest := ih (List.cons_ne_nil next rest)
      rw [List.intercalate_cons_cons, List.count_append, List.count_append, List.flatten_cons,
        List.count_append, List.length_cons]
      simp only [List.count_singleton_self]
      omega

/-! ## Reading -/

/-- What a text field says. -/
def readText (field : List Char) : Option String :=
  if field.isEmpty then none else some (String.ofList field)

/-- What a flag's field says. -/
def readFlag (field : List Char) : Bool := Text.upper (String.ofList field) == flagWord

/-- A line of seven fields is read, whatever they hold. -/
theorem parse_eq_ok_iff :
    parse line = .ok d ↔ ∃ ret envid orcpt success failure delay never,
      splitFields line.toList = [ret, envid, orcpt, success, failure, delay, never] ∧
      d = { ret := readText ret, envid := readText envid, orcpt := readText orcpt,
            success := readFlag success, failure := readFlag failure,
            delay := readFlag delay, never := readFlag never } := by
  unfold parse
  constructor
  · intro h
    dsimp only at h
    split at h
    · rename_i ret envid orcpt success failure delay never hfields
      exact ⟨ret, envid, orcpt, success, failure, delay, never, hfields, (Except.ok.inj h).symm⟩
    · cases h
  · rintro ⟨ret, envid, orcpt, success, failure, delay, never, hfields, rfl⟩
    rw [hfields]
    rfl

/-- A line of any other number of fields is refused with that number. -/
theorem parse_of_length_ne (h : (splitFields line.toList).length ≠ fieldCount) :
    parse line = .error (.invalidDsn
      ("expected 7 fields, found " ++ toString (splitFields line.toList).length)) := by
  unfold parse
  dsimp only
  split
  · rename_i hfields
    rw [hfields] at h
    exact absurd rfl h
  · rfl

/-! ## What can be persisted -/

/-- The text fields that are set. -/
def texts (d : Dsn) : List String := d.ret.toList ++ d.envid.toList ++ d.orcpt.toList

/-- The separators within text fields. -/
def strays (d : Dsn) : Nat := (d.texts.flatMap String.toList).count separator

/-- No text field is set to nothing, and none holds a separator. -/
def IsStorable (d : Dsn) : Prop := ∀ v ∈ d.texts, v ≠ "" ∧ separator ∉ v.toList

instance (d : Dsn) : Decidable d.IsStorable := inferInstanceAs (Decidable (∀ v ∈ d.texts, _))

theorem mem_texts {v : String} : v ∈ d.texts ↔ d.ret = some v ∨ d.envid = some v ∨ d.orcpt = some v := by
  simp [texts]

theorem strays_pos_iff : 0 < d.strays ↔ ∃ v ∈ d.texts, separator ∈ v.toList := by
  rw [strays, List.count_pos_iff, List.mem_flatMap]

theorem readText_eq_some {field : List Char} {v : String} (h : readText field = some v) :
    v.toList = field ∧ v ≠ "" := by
  unfold readText at h
  split at h
  · cases h
  · rename_i hfield
    obtain rfl := Option.some.inj h
    exact ⟨String.toList_ofList, by simpa using hfield⟩

/-- What is read from a line can be persisted. -/
theorem isStorable_of_parse (h : parse line = .ok d) : d.IsStorable := by
  obtain ⟨ret, envid, orcpt, success, failure, delay, never, hfields, rfl⟩ := parse_eq_ok_iff.mp h
  have hpiece : ∀ field ∈ splitFields line.toList, ∀ v, readText field = some v →
      v ≠ "" ∧ separator ∉ v.toList := by
    intro field hfield v hv
    obtain ⟨rfl, hset⟩ := readText_eq_some hv
    exact ⟨hset, notMem_of_mem_splitFields hfield⟩
  rw [hfields] at hpiece
  intro v hv
  rcases mem_texts.mp hv with hv | hv | hv
  · exact hpiece ret (by simp) v hv
  · exact hpiece envid (by simp) v hv
  · exact hpiece orcpt (by simp) v hv

/-! ## Writing -/

theorem toList_render (d : Dsn) :
    d.render.toList = [separator].intercalate (d.fields.map String.toList) := by
  rw [render, String.toList_intercalate, String.toList_singleton]

theorem count_flag (b : Bool) : (if b then flagWord else "").toList.count separator = 0 := by
  cases b <;> decide

/-- The fields of a line are those that are written, and one more for each separator in them. -/
theorem length_splitFields_render (d : Dsn) :
    (splitFields d.render.toList).length = fieldCount + d.strays := by
  have htext : ∀ v : Option String, (v.getD "").toList.count separator =
      (v.toList.flatMap String.toList).count separator := by
    intro v
    cases v <;> simp
  rw [length_splitFields, toList_render, count_intercalate_add (by simp [fields])]
  simp only [fields, strays, texts, List.map_cons, List.map_nil, List.flatten_cons, List.flatten_nil,
    List.flatMap_append, List.count_append, List.count_nil, List.length_cons, List.length_nil, htext,
    count_flag, fieldCount]
  omega

theorem splitFields_render (h : d.IsStorable) :
    splitFields d.render.toList = d.fields.map String.toList := by
  have htext : ∀ v : Option String, (∀ t, v = some t → t ∈ d.texts) →
      separator ∉ (v.getD "").toList := by
    intro v hv
    cases v with
    | none => decide
    | some t => exact (h t (hv t rfl)).2
  have hflag : ∀ b : Bool, separator ∉ (if b then flagWord else "").toList := by decide
  rw [toList_render, splitFields_eq_splitOn, List.splitOn_intercalate _ ?_ (by simp [fields])]
  simp only [fields, List.map_cons, List.map_nil, List.forall_mem_cons]
  exact ⟨htext _ fun t ht => mem_texts.mpr (.inl ht), htext _ fun t ht => mem_texts.mpr (.inr (.inl ht)),
    htext _ fun t ht => mem_texts.mpr (.inr (.inr ht)), hflag _, hflag _, hflag _, hflag _,
    List.forall_mem_nil _⟩

theorem readText_written {v : Option String} (h : ∀ t, v = some t → t ≠ "") :
    readText (v.getD "").toList = v := by
  cases v with
  | none => rfl
  | some t => simp [readText, h t rfl]

theorem readFlag_written : ∀ b : Bool, readFlag (if b then flagWord else "").toList = b := by
  decide

theorem parse_render_of_isStorable (h : d.IsStorable) : parse d.render = .ok d := by
  have hset : ∀ t ∈ d.texts, t ≠ "" := fun t ht => (h t ht).1
  refine parse_eq_ok_iff.mpr ⟨_, _, _, _, _, _, _, splitFields_render h, ?_⟩
  simp only [readFlag_written]
  rw [readText_written fun t ht => hset t (mem_texts.mpr (.inl ht)),
    readText_written fun t ht => hset t (mem_texts.mpr (.inr (.inl ht))),
    readText_written fun t ht => hset t (mem_texts.mpr (.inr (.inr ht)))]

/-- A request is read back from its persisted form if and only if no text field is set to nothing or
holds a separator; for each separator in a field, one field too many is found.  What is read from a
line, however that spells its flags, is read back from its own form, which is then written again. -/
theorem persisted_form_read_back :
    (∀ d : Dsn, parse d.render = .ok d ↔ d.IsStorable) ∧
    (∀ d : Dsn, (∃ v ∈ d.texts, separator ∈ v.toList) → parse d.render =
      .error (.invalidDsn ("expected 7 fields, found " ++ toString (7 + d.strays)))) ∧
    ∀ (line : String) (d : Dsn), parse line = .ok d →
      d.IsStorable ∧ parse d.render = .ok d ∧ (parse d.render).map render = .ok d.render := by
  refine ⟨fun d => ⟨isStorable_of_parse, parse_render_of_isStorable⟩, fun d hstray => ?_,
    fun line d hread => ?_⟩
  · have hpos := strays_pos_iff.mpr hstray
    have hlength := length_splitFields_render d
    have hrefused := parse_of_length_ne (show (splitFields d.render.toList).length ≠ fieldCount by omega)
    rw [hrefused, hlength]
    rfl
  · have hstorable := isStorable_of_parse hread
    have hback := parse_render_of_isStorable hstorable
    refine ⟨hstorable, hback, ?_⟩
    rw [hback]
    rfl

/-- Two separators in one field; and a line whose flags are spelled in many ways. -/
theorem persisted_form_read_back_spelled :
    let stray : Dsn := { envid := some "a\x60b\x60" }
    let line := "HDRS\x60\x60a@b\x60tRuE\x60yes\x60\x60TRUE"
    let d : Dsn := { ret := some "HDRS", orcpt := some "a@b", success := true, never := true }
    parse stray.render = .error (.invalidDsn "expected 7 fields, found 9") ∧
      parse line = .ok d ∧ d.render ≠ line ∧ parse d.render = .ok d := by
  intro stray line d
  obtain ⟨-, hstray, hread⟩ := persisted_form_read_back
  have hline : parse line = .ok d := parse_eq_ok_iff.mpr ⟨"HDRS".toList, [], "a@b".toList,
    "tRuE".toList, "yes".toList, [], "TRUE".toList, by decide +kernel, by decide +kernel⟩
  have htwo : stray.strays = 2 := by decide +kernel
  refine ⟨(hstray stray ⟨"a\x60b\x60", by decide, by decide⟩).trans ?_, hline, by decide +kernel,
    (hread line d hline).2.1⟩
  rw [htwo]
  rfl

end MailSubmission.Dsn
