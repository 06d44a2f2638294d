import MailSubmission.Body.Stuffing

set_option autoImplicit false

/-!
# A stuffed body can be read back

What stands on the wire for a body, `encode`, does not depend on the pieces in which the
body was stuffed (`stuff_append`).  A receiver knows nothing of stuffing positions: it
splits what comes in at the line ends, stops at the line that is a single dot, and drops a
dot from every other line that begins with one (`receive`).  It recovers the body and stops
exactly at the end of what was sent (`receive_encode`), so no shorter piece of it holds a
line that is a single dot (`eq_encode_of_dot_mem_lines`).
-/

namespace MailSubmission.Body

/-! ## Stuffing in pieces -/

theorem behind_append (p : Position) (a b : List UInt8) :
    p.behind (a ++ b) = (p.behind a).behind b := by
  unfold Position.behind
  exact List.foldl_append

theorem stuff_append (p : Position) (a b : List UInt8) :
    stuff p (a ++ b) = stuff p a ++ stuff (p.behind a) b := by
  induction a generalizing p with
  | nil => rfl
  | cons x rest ih =>
    rw [List.cons_append, stuff, stuff, ih, List.append_assoc]
    rfl

/-- What stands on the wire for a body. -/
def encode (body : List UInt8) : List UInt8 := stuff .lineStart body ++ terminator

/-! ## A receiver -/

/-- What ends a line. -/
def lineEnd : List UInt8 := [13, 10]

/-- The first line, without its end, and what follows; nothing if no line ends. -/
def firstLine? : List UInt8 → Option (List UInt8 × List UInt8)
  | [] => none
  | b :: rest =>
    if b = 13 ∧ rest.head? = some 10 then some ([], rest.drop 1)
    else (firstLine? rest).map fun (line, after) => (b :: line, after)

theorem length_of_firstLine? {octets line after : List UInt8}
    (h : firstLine? octets = some (line, after)) : after.length < octets.length := by
  induction octets generalizing line with
  | nil => simp [firstLine?] at h
  | cons b rest ih =>
    unfold firstLine? at h
    split at h
    · simp only [Option.some.injEq, Prod.mk.injEq] at h
      obtain ⟨-, rfl⟩ := h
      simp only [List.length_drop, List.length_cons]
      omega
    · rw [Option.map_eq_some_iff] at h
      obtain ⟨⟨line', after'⟩, hrest, he⟩ := h
      simp only [Prod.mk.injEq] at he
      obtain ⟨-, rfl⟩ := he
      exact Nat.lt_succ_of_lt (ih hrest)

/-- The lines, without their ends; what follows the last line end is none. -/
def lines (octets : List UInt8) : List (List UInt8) :=
  match _h : firstLine? octets with
  | none => []
  | some (line, after) => line :: lines after
  termination_by octets.length
  decreasing_by exact length_of_firstLine? _h

/-- A line without the dot that was put before it. -/
def unstuff (line : List UInt8) : List UInt8 := if line.head? = some dot then line.drop 1 else line

/-- What a receiver recovers, and what it has not looked at; nothing while no line is a
single dot. -/
def receive (octets : List UInt8) : Option (List UInt8 × List UInt8) :=
  match _h : firstLine? octets with
  | none => none
  | some (line, after) =>
    if line = [dot] then some ([], after)
    else (receive after).map fun (body, rest) => (unstuff line ++ lineEnd ++ body, rest)
  termination_by octets.length
  decreasing_by exact length_of_firstLine? _h

theorem receive_of_firstLine? {octets line after : List UInt8}
    (h : firstLine? octets = some (line, after)) :
    receive octets = if line = [dot] then some ([], after)
      else (receive after).map fun (body, rest) => (unstuff line ++ lineEnd ++ body, rest) := by
  rw [receive]
  split
  · rename_i hn
    rw [hn] at h
    exact absurd h (by simp)
  · rename_i line' after' hs
    rw [hs] at h
    simp only [Option.some.injEq, Prod.mk.injEq] at h
    obtain ⟨rfl, rfl⟩ := h
    rfl

theorem receive_eq_none {octets : List UInt8} (h : firstLine? octets = none) :
    receive octets = none := by
  rw [receive]
  split
  · rfl
  · rename_i hs
    rw [hs] at h
    exact absurd h (by simp)

theorem lines_of_firstLine? {octets line after : List UInt8}
    (h : firstLine? octets = some (line, after)) : lines octets = line :: lines after := by
  rw [lines]
  split
  · rename_i hn
    rw [hn] at h
    exact absurd h (by simp)
  · rename_i line' after' hs
    rw [hs] at h
    simp only [Option.some.injEq, Prod.mk.injEq] at h
    obtain ⟨rfl, rfl⟩ := h
    rfl

theorem lines_eq_nil {octets : List UInt8} (h : firstLine? octets = none) : lines octets = [] := by
  rw [lines]
  split
  · rfl
  · rename_i hs
    rw [hs] at h
    exact absurd h (by simp)

/-- A receiver stops at a single dot and at nothing else. -/
theorem receive_isSome_iff (octets : List UInt8) :
    (receive octets).isSome = true ↔ [dot] ∈ lines octets := by
  induction hn : octets.length using Nat.strongRecOn generalizing octets with
  | ind n ih =>
    cases hs : firstLine? octets with
    | none => simp [receive_eq_none hs, lines_eq_nil hs]
    | some split =>
      obtain ⟨line, after⟩ := split
      have hafter := ih after.length (hn ▸ length_of_firstLine? hs) after rfl
      rw [receive_of_firstLine? hs, lines_of_firstLine? hs, List.mem_cons]
      split
      · rename_i hline
        simp [hline]
      · rename_i hline
        rw [Option.isSome_map, hafter]
        exact ⟨Or.inr, fun hm => hm.resolve_left fun he => hline he.symm⟩

/-! ## Where lines end -/

/-- Octets split into their first line and what follows it; a line holds no line end. -/
theorem eq_of_firstLine? {octets line after : List UInt8}
    (h : firstLine? octets = some (line, after)) :
    octets = line ++ lineEnd ++ after ∧ firstLine? line = none := by
  induction octets generalizing line with
  | nil => simp [firstLine?] at h
  | cons b rest ih =>
    unfold firstLine? at h
    split at h
    · rename_i hb
      simp only [Option.some.injEq, Prod.mk.injEq] at h
      obtain ⟨rfl, rfl⟩ := h
      refine ⟨?_, rfl⟩
      obtain ⟨rfl, hhead⟩ := hb
      cases rest with
      | nil => simp at hhead
      | cons c more =>
        simp only [List.head?_cons, Option.some.injEq] at hhead
        subst hhead
        rfl
    · rename_i hb
      rw [Option.map_eq_some_iff] at h
      obtain ⟨⟨line', after'⟩, hrest, he⟩ := h
      simp only [Prod.mk.injEq] at he
      obtain ⟨rfl, rfl⟩ := he
      obtain ⟨hsplit, hline⟩ := ih hrest
      refine ⟨by rw [hsplit]; rfl, ?_⟩
      rw [firstLine?, hline, if_neg]
      · rfl
      · rintro ⟨rfl, hhead⟩
        refine hb ⟨rfl, ?_⟩
        rw [hsplit, List.append_assoc, List.head?_append, hhead]
        rfl

/-- Octets without a line end are the first line once a line end follows them. -/
theorem firstLine?_append {line : List UInt8} (after : List UInt8)
    (h : firstLine? line = none) : firstLine? (line ++ lineEnd ++ after) = some (line, after) := by
  induction line with
  | nil => rfl
  | cons b rest ih =>
    unfold firstLine? at h
    split at h
    · exact absurd h (by simp)
    · rename_i hb
      have hrest : firstLine? rest = none := Option.map_eq_none_iff.mp h
      rw [List.cons_append, List.cons_append, firstLine?, ih hrest, if_neg]
      · rfl
      · rintro ⟨rfl, hhead⟩
        cases rest with
        | nil => simp [lineEnd] at hhead
        | cons c more => exact hb ⟨rfl, hhead⟩

/-! ## Reading a stuffed body back -/

/-- Inside a line nothing is stuffed. -/
theorem stuff_of_ne_lineStart {line : List UInt8} (h : firstLine? line = none) {p : Position}
    (hp : p ≠ .lineStart) (hr : p = .afterReturn → line.head? ≠ some 10) : stuff p line = line := by
  induction line generalizing p with
  | nil => rfl
  | cons b rest ih =>
    unfold firstLine? at h
    split at h
    · exact absurd h (by simp)
    · rename_i hb
      have hrest : firstLine? rest = none := Option.map_eq_none_iff.mp h
      have hoctet : stuffOctet p b = [b] := by
        unfold stuffOctet
        simp [hp]
      have hnext : p.advance b ≠ .lineStart := by
        unfold Position.advance
        split
        · simp
        · split
          · rename_i hlf
            simp only [Bool.and_eq_true, decide_eq_true_eq] at hlf
            exact absurd (by rw [hlf.1]; rfl) (hr hlf.2)
          · simp
      have hreturn : p.advance b = .afterReturn → rest.head? ≠ some 10 := by
        intro ha hhead
        refine hb ⟨?_, hhead⟩
        unfold Position.advance at ha
        split at ha
        · assumption
        · split at ha <;> simp at ha
      rw [stuff, hoctet, ih hrest hnext hreturn]
      rfl

/-- A line is stuffed at its beginning only. -/
theorem stuff_line {line : List UInt8} (h : firstLine? line = none) :
    stuff .lineStart line = if line.head? = some dot then dot :: line else line := by
  cases line with
  | nil => rfl
  | cons b rest =>
    unfold firstLine? at h
    split at h
    · exact absurd h (by simp)
    · rename_i hb
      have hrest : firstLine? rest = none := Option.map_eq_none_iff.mp h
      have hnext : Position.lineStart.advance b ≠ .lineStart := by
        unfold Position.advance
        split <;> simp
      have hreturn : Position.lineStart.advance b = .afterReturn → rest.head? ≠ some 10 := by
        intro ha hhead
        refine hb ⟨?_, hhead⟩
        unfold Position.advance at ha
        split at ha
        · assumption
        · simp at ha
      rw [stuff, stuff_of_ne_lineStart hrest hnext hreturn]
      unfold stuffOctet
      by_cases hd : b = dot <;> simp [hd]

theorem firstLine?_stuff_line {line : List UInt8} (h : firstLine? line = none) :
    firstLine? (stuff .lineStart line) = none := by
  rw [stuff_line h]
  split
  · rw [firstLine?, h]
    rfl
  · exact h

theorem stuff_line_ne_dot {line : List UInt8} (h : firstLine? line = none) :
    stuff .lineStart line ≠ [dot] := by
  rw [stuff_line h]
  split
  · rename_i hd
    intro he
    simp only [List.cons.injEq, true_and] at he
    rw [he] at hd
    simp at hd
  · rename_i hd
    intro he
    rw [he] at hd
    exact hd rfl

theorem unstuff_stuff_line {line : List UInt8} (h : firstLine? line = none) :
    unstuff (stuff .lineStart line) = line := by
  rw [stuff_line h]
  unfold unstuff
  by_cases hd : line.head? = some dot <;> simp [hd]

theorem behind_lineEnd (p : Position) : p.behind lineEnd = .lineStart := rfl

theorem stuff_lineEnd (p : Position) : stuff p lineEnd = lineEnd := by
  cases p <;> rfl

/-- A receiver reads a line of a body as it was before stuffing. -/
theorem receive_stuff_line {line : List UInt8} (h : firstLine? line = none) (after : List UInt8) :
    receive (stuff .lineStart line ++ lineEnd ++ after) =
      (receive after).map fun (body, rest) => (line ++ lineEnd ++ body, rest) := by
  rw [receive_of_firstLine? (firstLine?_append after (firstLine?_stuff_line h)),
    if_neg (stuff_line_ne_dot h), unstuff_stuff_line h]

/-- The dot that ends a body stops a receiver. -/
theorem receive_dot (rest : List UInt8) :
    receive ([dot] ++ lineEnd ++ rest) = some ([], rest) := by
  rw [receive_of_firstLine? (firstLine?_append rest (by rfl : firstLine? [dot] = none)), if_pos rfl]

/-- A receiver recovers the body, its last line ended, and looks at nothing behind it.  The
induction follows the lines of the body: each of them is either ended by the body or, as
the last one, by what ends the body. -/
theorem receive_encode (body rest : List UInt8) :
    receive (encode body ++ rest) = some (body ++ lineEnd, rest) := by
  have hdot := receive_dot rest
  induction hn : body.length using Nat.strongRecOn generalizing body with
  | ind n ih =>
    cases hb : firstLine? body with
    | none =>
      have hend : encode body ++ rest =
          stuff .lineStart body ++ lineEnd ++ ([dot] ++ lineEnd ++ rest) := by
        simp [encode, terminator, lineEnd]
      rw [hend, receive_stuff_line hb, hdot]
      simp
    | some split =>
      obtain ⟨line, after⟩ := split
      obtain ⟨rfl, hline⟩ := eq_of_firstLine? hb
      have hsplit : encode (line ++ lineEnd ++ after) ++ rest =
          stuff .lineStart line ++ lineEnd ++ (encode after ++ rest) := by
        unfold encode
        rw [stuff_append, stuff_append, behind_append, behind_lineEnd, stuff_lineEnd]
        simp only [List.append_assoc]
      rw [hsplit, receive_stuff_line hline,
        ih after.length (hn ▸ length_of_firstLine? hb) after rfl]
      simp only [Option.map_some, List.append_assoc]

/-! ## No earlier end -/

theorem firstLine?_append_of_some {octets line after : List UInt8} (more : List UInt8)
    (h : firstLine? octets = some (line, after)) :
    firstLine? (octets ++ more) = some (line, after ++ more) := by
  obtain ⟨rfl, hline⟩ := eq_of_firstLine? h
  rw [List.append_assoc]
  exact firstLine?_append (after ++ more) hline

/-- What comes in later does not change what a receiver has stopped at. -/
theorem receive_append {octets body rest : List UInt8} (more : List UInt8)
    (h : receive octets = some (body, rest)) :
    receive (octets ++ more) = some (body, rest ++ more) := by
  induction hn : octets.length using Nat.strongRecOn generalizing octets body with
  | ind n ih =>
    cases hs : firstLine? octets with
    | none =>
      rw [receive_eq_none hs] at h
      exact absurd h (by simp)
    | some split =>
      obtain ⟨line, after⟩ := split
      rw [receive_of_firstLine? hs] at h
      rw [receive_of_firstLine? (firstLine?_append_of_some more hs)]
      split at h
      · rename_i hd
        rw [if_pos hd]
        simp only [Option.some.injEq, Prod.mk.injEq] at h
        obtain ⟨rfl, rfl⟩ := h
        rfl
      · rename_i hd
        rw [if_neg hd]
        rw [Option.map_eq_some_iff] at h
        obtain ⟨⟨body', rest'⟩, hr, he⟩ := h
        simp only [Prod.mk.injEq] at he
        obtain ⟨rfl, rfl⟩ := he
        rw [ih after.length (hn ▸ length_of_firstLine? hs) hr rfl]
        rfl

/-- A beginning of what is sent for a body that holds a line that is a single dot is all of
it. -/
theorem eq_encode_of_dot_mem_lines {octets body : List UInt8} (h : octets <+: encode body)
    (hd : [dot] ∈ lines octets) : octets = encode body := by
  obtain ⟨tail, ht⟩ := h
  obtain ⟨⟨found, rest⟩, hr⟩ := Option.isSome_iff_exists.mp ((receive_isSome_iff octets).mpr hd)
  have hall := receive_append tail hr
  have hencode := receive_encode body []
  rw [List.append_nil] at hencode
  rw [ht, hencode] at hall
  simp only [Option.some.injEq, Prod.mk.injEq] at hall
  have htail : tail = [] := (List.append_eq_nil_iff.mp hall.2.symm).2
  rw [← ht, htail, List.append_nil]

end MailSubmission.Body
