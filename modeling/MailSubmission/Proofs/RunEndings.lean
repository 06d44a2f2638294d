import MailSubmission.Run

set_option autoImplicit false

/-!
# How calls end

`Run.Ends act s ok halt` says what becomes of a call on the state `s`: if it returns, its
value and its state satisfy `ok`; if it fails or is dropped, the reason and the state it
leaves satisfy `halt`.  There is one rule for each way in which calls are put together,
so that what a long call does follows from what its parts do.
-/

namespace MailSubmission.Run

variable {ε ε' σ α β : Type}

/-- Carried out on `s`, the call ends as `ok` or `halt` says. -/
def Ends (act : Run ε σ α) (s : σ) (ok : α → σ → Prop) (halt : Halt ε → σ → Prop) : Prop :=
  match act s with
  | .ok a s' => ok a s'
  | .error h s' => halt h s'

/-! ## Reading an ending off -/

theorem Ends.of_ok {act : Run ε σ α} {s s' : σ} {a : α} {ok : α → σ → Prop}
    {halt : Halt ε → σ → Prop} (h : Ends act s ok halt) (hr : act s = .ok a s') : ok a s' := by
  unfold Ends at h
  rw [hr] at h
  exact h

theorem Ends.of_error {act : Run ε σ α} {s s' : σ} {e : Halt ε} {ok : α → σ → Prop}
    {halt : Halt ε → σ → Prop} (h : Ends act s ok halt) (hr : act s = .error e s') :
    halt e s' := by
  unfold Ends at h
  rw [hr] at h
  exact h

/-- A call ends as it does. -/
theorem ends_self (act : Run ε σ α) (s : σ) :
    Ends act s (fun a s' => act s = .ok a s') fun e s' => act s = .error e s' := by
  unfold Ends
  cases act s with
  | ok a s' => rfl
  | error e s' => rfl

/-- What an ending implies is an ending too. -/
theorem Ends.mono {act : Run ε σ α} {s : σ} {ok ok' : α → σ → Prop}
    {halt halt' : Halt ε → σ → Prop} (h : Ends act s ok halt)
    (hok : ∀ a s', ok a s' → ok' a s') (hhalt : ∀ e s', halt e s' → halt' e s') :
    Ends act s ok' halt' := by
  unfold Ends at h ⊢
  cases hr : act s with
  | ok a s' =>
    rw [hr] at h
    exact hok a s' h
  | error e s' =>
    rw [hr] at h
    exact hhalt e s' h

/-- Two accounts of how a call ends hold together. -/
theorem Ends.and {act : Run ε σ α} {s : σ} {ok ok' : α → σ → Prop} {halt halt' : Halt ε → σ → Prop}
    (h : Ends act s ok halt) (g : Ends act s ok' halt') :
    Ends act s (fun a s' => ok a s' ∧ ok' a s') fun e s' => halt e s' ∧ halt' e s' := by
  unfold Ends at h g ⊢
  cases hr : act s with
  | ok a s' =>
    rw [hr] at h g
    exact ⟨h, g⟩
  | error e s' =>
    rw [hr] at h g
    exact ⟨h, g⟩

/-- A call goes on after a part that returned. -/
theorem bind_of_ok {act : Run ε σ α} {next : α → Run ε σ β} {s s' : σ} {a : α}
    (hr : act s = .ok a s') : (act >>= next) s = next a s' := by
  simp only [bind, EStateM.bind, hr]

/-- A call ends with a part that does not return. -/
theorem bind_of_error {act : Run ε σ α} {next : α → Run ε σ β} {s s' : σ} {e : Halt ε}
    (hr : act s = .error e s') : (act >>= next) s = .error e s' := by
  simp only [bind, EStateM.bind, hr]

/-- What follows a part depends on nothing but how the part ends. -/
theorem bind_congr_state {act : Run ε σ α} {next : α → Run ε σ β} {s t : σ} (h : act s = act t) :
    (act >>= next) s = (act >>= next) t := by
  simp only [bind, EStateM.bind, h]

/-! ## One rule for each kind of call -/

@[simp] theorem ends_pure {a : α} {s : σ} {ok : α → σ → Prop} {halt : Halt ε → σ → Prop} :
    Ends (pure a) s ok halt ↔ ok a s := Iff.rfl

@[simp] theorem ends_bind {act : Run ε σ α} {next : α → Run ε σ β} {s : σ}
    {ok : β → σ → Prop} {halt : Halt ε → σ → Prop} :
    Ends (act >>= next) s ok halt ↔
      Ends act s (fun a s' => Ends (next a) s' ok halt) halt := by
  unfold Ends
  simp only [bind, EStateM.bind]
  cases act s with
  | ok a s' => exact Iff.rfl
  | error e s' => exact Iff.rfl

@[simp] theorem ends_get {s : σ} {ok : σ → σ → Prop} {halt : Halt ε → σ → Prop} :
    Ends (get : Run ε σ σ) s ok halt ↔ ok s s := Iff.rfl

@[simp] theorem ends_modify {f : σ → σ} {s : σ} {ok : PUnit → σ → Prop}
    {halt : Halt ε → σ → Prop} :
    Ends (modify f : Run ε σ PUnit) s ok halt ↔ ok ⟨⟩ (f s) := Iff.rfl

@[simp] theorem ends_fail {fault : ε} {s : σ} {ok : α → σ → Prop} {halt : Halt ε → σ → Prop} :
    Ends (fail fault : Run ε σ α) s ok halt ↔ halt (.failed fault) s := Iff.rfl

@[simp] theorem ends_ite {p : Prop} [Decidable p] {act act' : Run ε σ α} {s : σ}
    {ok : α → σ → Prop} {halt : Halt ε → σ → Prop} :
    Ends (if p then act else act') s ok halt ↔
      if p then Ends act s ok halt else Ends act' s ok halt := by
  split
  · exact Iff.rfl
  · exact Iff.rfl

/-- A failure that is caught counts as a return; a dropped call cannot be caught. -/
theorem ends_attempt {act : Run ε σ α} {s : σ} {ok : Except ε α → σ → Prop}
    {halt : Halt ε' → σ → Prop} :
    Ends (attempt act : Run ε' σ (Except ε α)) s ok halt ↔
      Ends act s (fun a s' => ok (.ok a) s') fun e s' =>
        match e with
        | .failed fault => ok (.error fault) s'
        | .abandoned => halt .abandoned s' := by
  unfold Ends attempt
  cases act s with
  | ok a s' => exact Iff.rfl
  | error e s' =>
    cases e with
    | failed fault => exact Iff.rfl
    | abandoned => exact Iff.rfl

end MailSubmission.Run
