import MailSubmission.Address

set_option autoImplicit false

/-!
# An address is read back as it is shown

An address may hold white space, also at its ends, and what is read as one is trimmed and may stand
in brackets or not.  What is shown has its brackets, so that nothing of it is taken for white space
around it, and an address holds no bracket, so that no more than one pair is taken off
(`Address.shown_address_read_back`).
-/

namespace MailSubmission

/-! ## The last separator -/

section

variable {sep : Char} {cs before after : List Char}

theorem splitLast?_eq_none_iff : splitLast? sep cs = none ↔ sep ∉ cs := by
  induction cs with
  | nil => simp [splitLast?]
  | cons c cs ih =>
    rw [splitLast?, List.mem_cons, not_or, ← ih]
    cases splitLast? sep cs with
    | some parts => simp
    | none => simp [eq_comm]

theorem splitLast?_append (h : sep ∉ after) :
    splitLast? sep (before ++ sep :: after) = some (before, after) := by
  induction before with
  | nil => rw [List.nil_append, splitLast?, splitLast?_eq_none_iff.mpr h, if_pos rfl]
  | cons c before ih => rw [List.cons_append, splitLast?, ih]

theorem splitLast?_eq_some_iff :
    splitLast? sep cs = some (before, after) ↔ cs = before ++ sep :: after ∧ sep ∉ after := by
  constructor
  · intro h
    induction cs generalizing before with
    | nil => simp [splitLast?] at h
    | cons c cs ih =>
      rw [splitLast?] at h
      cases hrest : splitLast? sep cs with
      | some parts =>
        rw [hrest] at h
        simp only [Option.some.injEq, Prod.mk.injEq] at h
        obtain ⟨rfl, rfl⟩ := h
        obtain ⟨hcs, hafter⟩ := ih hrest
        exact ⟨congrArg (c :: ·) hcs, hafter⟩
      | none =>
        rw [hrest] at h
        simp only [Option.ite_none_right_eq_some, Option.some.injEq, Prod.mk.injEq] at h
        obtain ⟨rfl, rfl, rfl⟩ := h
        exact ⟨rfl, splitLast?_eq_none_iff.mp hrest⟩
  · rintro ⟨rfl, hafter⟩
    exact splitLast?_append hafter

end

namespace Address

/-! ## What an address looks like -/

/-- An address other than the null path: two parts around the last at sign, and neither an ASCII
control character nor an angle bracket anywhere. -/
structure IsPath (text : String) : Prop where
  parts : ∃ localPart domain, text.toList = localPart ++ '@' :: domain ∧ '@' ∉ domain ∧
    localPart ≠ [] ∧ domain ≠ []
  plain : ∀ c ∈ text.toList, 0x20 ≤ c.toNat ∧ c.toNat ≠ 0x7F ∧ c ≠ '<' ∧ c ≠ '>'

variable {text : String} {a : Address}

theorem isForbidden_eq_false_iff {c : Char} :
    isForbidden c = false ↔ 0x20 ≤ c.toNat ∧ c.toNat ≠ 0x7F ∧ c ≠ '<' ∧ c ≠ '>' := by
  simp [isForbidden, and_assoc]

theorem defect?_eq_none_iff : defect? text = none ↔ IsPath text := by
  unfold defect?
  constructor
  · intro h
    split at h
    · cases h
    split at h
    · cases h
    rename_i hplain
    split at h
    · cases h
    rename_i localPart domain hsplit
    split at h
    · cases h
    rename_i hparts
    simp only [Bool.not_eq_true, Bool.or_eq_false_iff, List.isEmpty_eq_false_iff] at hparts
    obtain ⟨htext, hdomain⟩ := splitLast?_eq_some_iff.mp hsplit
    refine ⟨⟨localPart, domain, htext, hdomain, hparts⟩, fun c hc => ?_⟩
    rw [Bool.not_eq_true, List.any_eq_false] at hplain
    exact isForbidden_eq_false_iff.mp (Bool.eq_false_iff.mpr (hplain c hc))
  · rintro ⟨⟨localPart, domain, htext, hdomain, hparts⟩, hplain⟩
    have hsome : text.isEmpty = false := by
      rw [Bool.eq_false_iff, Ne, String.isEmpty_iff, ← String.toList_inj, htext]
      simp
    have hallowed : text.toList.any isForbidden = false := by
      rw [List.any_eq_false]
      exact fun c hc => Bool.eq_false_iff.mp (isForbidden_eq_false_iff.mpr (hplain c hc))
    rw [if_neg (Bool.eq_false_iff.mp hsome), if_neg (Bool.eq_false_iff.mp hallowed), htext,
      splitLast?_append hdomain]
    simp [hparts]

/-- Just the texts that look like one are addresses. -/
theorem ofText_eq_ok_iff : ofText text = .ok a ↔ a.text = text ∧ IsPath text := by
  rw [← defect?_eq_none_iff]
  unfold ofText
  split
  · rename_i hnone
    rw [Except.ok.injEq]
    constructor
    · rintro rfl
      exact ⟨rfl, hnone⟩
    · rintro ⟨rfl, -⟩
      rfl
  · rename_i d hsome
    simp [hsome]

/-- Every address is the null path or looks like an address. -/
theorem eq_null_or_isPath (a : Address) : a = null ∨ IsPath a.text := by
  obtain ⟨text, hempty | hsound⟩ := a
  · subst hempty
    exact .inl rfl
  · exact .inr (defect?_eq_none_iff.mp hsound)

theorem notMem_bracket (a : Address) : '<' ∉ a.text.toList := by
  intro hmem
  rcases a.eq_null_or_isPath with rfl | hpath
  · cases hmem
  · exact (hpath.plain _ hmem).2.2.1 rfl

/-! ## Reading -/

/-- What is left inside the brackets, or of a text without, is read as it is. -/
theorem of_inner (a : Address) : (if a.text.isEmpty then .ok null else ofText a.text) = Except.ok a := by
  rcases a.eq_null_or_isPath with rfl | hpath
  · rfl
  · have hsome : ¬ a.text.isEmpty = true := by
      rw [String.isEmpty_iff]
      intro hempty
      obtain ⟨localPart, domain, htext, -⟩ := hpath.parts
      simp [hempty] at htext
    rw [if_neg hsome]
    exact ofText_eq_ok_iff.mpr ⟨rfl, hpath⟩

theorem toList_render (a : Address) : a.render.toList = '<' :: (a.text.toList ++ ['>']) := by
  simp [render]

theorem unbracket_bracketed (inner : List Char) : unbracket ('<' :: (inner ++ ['>'])) = inner := by
  simp [unbracket]

/-- A text stands in one pair of brackets, or nothing is taken off. -/
theorem unbracket_eq (cs : List Char) :
    cs = '<' :: (unbracket cs ++ ['>']) ∨ unbracket cs = cs := by
  unfold unbracket
  split
  · rename_i rest
    split
    · rename_i hlast
      obtain ⟨inner, rfl⟩ := List.getLast?_eq_some_iff.mp hlast
      exact .inl (by rw [List.dropLast_concat])
    · exact .inr rfl
  · exact .inr rfl

/-- Brackets are kept where the text does not begin with one. -/
theorem unbracket_of_notMem {cs : List Char} (h : '<' ∉ cs) : unbracket cs = cs := by
  rcases unbracket_eq cs with hcs | hcs
  · exact absurd (hcs ▸ List.mem_cons_self) h
  · exact hcs

/-- A text is read as an address if that is left when the white space around it is taken off: with
its brackets or without. -/
theorem parse_eq_ok_iff :
    parse text = .ok a ↔ Text.trim text = a.render ∨ Text.trim text = a.text := by
  have hletters : ∀ t, Text.trim text = t ↔ (Text.trim text).toList = t.toList :=
    fun _ => String.toList_inj.symm
  rw [hletters, hletters, toList_render]
  unfold parse
  constructor
  · intro h
    have hinner : String.ofList (unbracket (Text.trim text).toList) = a.text := by
      dsimp only at h
      split at h
      · rename_i hempty
        obtain rfl := Except.ok.inj h
        exact String.isEmpty_iff.mp hempty
      · exact (ofText_eq_ok_iff.mp h).1.symm
    rw [← hinner, String.toList_ofList]
    rcases unbracket_eq (Text.trim text).toList with hcs | hcs
    · exact .inl hcs
    · exact .inr hcs.symm
  · rintro (hcs | hcs)
    · rw [hcs, unbracket_bracketed, String.ofList_toList]
      exact a.of_inner
    · rw [hcs, unbracket_of_notMem a.notMem_bracket, String.ofList_toList]
      exact a.of_inner

/-- There is no white space around brackets. -/
theorem trim_render (a : Address) : Text.trim a.render = a.render := by
  have hopening : Text.isBlank '<' = false := by decide
  have hclosing : Text.isBlank '>' = false := by decide
  rw [Text.trim, toList_render]
  simp [hopening, hclosing, render, String.ofList_cons, String.append_assoc]

/-- An address is read back from what is shown of it, white space and all, and so is the null path.
An address is the null path or has two parts around its last at sign and holds no control character
and no bracket, and just such texts can be made addresses.  What is read and shown is read as it was
at first. -/
theorem shown_address_read_back :
    (∀ a : Address, parse a.render = .ok a) ∧
    (∀ a : Address, a = null ∨ IsPath a.text) ∧
    (∀ text, (∃ a, ofText text = .ok a ∧ a.text = text) ↔ IsPath text) ∧
    ∀ text, (parse text).bind (fun a => parse a.render) = parse text := by
  have hread : ∀ a : Address, parse a.render = .ok a :=
    fun a => parse_eq_ok_iff.mpr (.inl a.trim_render)
  refine ⟨hread, eq_null_or_isPath, fun text => ⟨?_, fun hpath => ?_⟩, fun text => ?_⟩
  · rintro ⟨a, hmade, -⟩
    exact (ofText_eq_ok_iff.mp hmade).2
  · exact ⟨⟨text, .inr (defect?_eq_none_iff.mpr hpath)⟩, ofText_eq_ok_iff.mpr ⟨rfl, hpath⟩, rfl⟩
  · cases parse text with
    | error fault => rfl
    | ok a => rw [Except.bind, hread]

/-- The white space around the brackets goes, that inside them stays. -/
example : (parse "\t< a@b >\u3000").toOption.map (·.text) = some " a@b " := by decide +kernel

end Address

end MailSubmission
