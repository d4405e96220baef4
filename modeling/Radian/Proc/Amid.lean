import Radian.Proc.Outside

/-!
# Runs amid interference

Other tasks run while a process awaits an answer, so the shared state it finds afterwards is not the
one it left.  Its local state is its own.

- `Proc.Amid` — an execution in which the shared state moves at every call.
- `Proc.during` — its weakest precondition, with `Proc.Amid.sound` and `Proc.during_iff`.
- `Proc.Within` — a process whose sections move the local state within a relation and whose marks
  are of certain kinds.
- `Proc.Within.during` — **the frame rule**: what that relation and those marks keep, the process
  keeps.
-/

namespace Proc

variable {L S N E W : Type} {R : E → Type} {α β : Type}

/-- An execution of a process in which the shared state moves by `drift` at every call. -/
inductive Amid (O : Outside L S N E R W) (allow : N → L → S → W → Prop) (drift : S → S → Prop) :
    Proc L S N E R α → L → S → W → α → L → S → W → Prop where
  | ret {a l s w} : Amid O allow drift (.ret a) l s w a l s w
  | get {k l s w a l' s' w'} : Amid O allow drift (k l s) l s w a l' s' w' →
      Amid O allow drift (.get k) l s w a l' s' w'
  | put {l₁ s₁ k l s w a l' s' w'} : Amid O allow drift k l₁ s₁ w a l' s' w' →
      Amid O allow drift (.put l₁ s₁ k) l s w a l' s' w'
  | note {n k l s w a l' s' w'} : allow n l s w →
      Amid O allow drift k l s (O.mark n l s w) a l' s' w' →
      Amid O allow drift (.note n k) l s w a l' s' w'
  | call {e k l s s₁ w r a l' s' w'} : O.answers e w r = true → drift s s₁ →
      Amid O allow drift (k r) l s₁ (O.effect e r w) a l' s' w' →
      Amid O allow drift (.call e k) l s w a l' s' w'

/-- Marks may be assumed to meet `allow`; at a call the shared state moves by `drift`. -/
def interrupted (O : Outside L S N E R W) (allow : N → L → S → W → Prop) (drift : S → S → Prop) :
    Transformer L S N E R W where
  note n l s K w := allow n l s w → K (O.mark n l s w)
  call e K l s w := ∀ r s₁, O.answers e w r = true → drift s s₁ → K r l s₁ (O.effect e r w)

theorem interrupted_monotone (O : Outside L S N E R W) (allow : N → L → S → W → Prop)
    (drift : S → S → Prop) : (interrupted O allow drift).Monotone where
  note h hx ha := h _ (hx ha)
  call h hx r s₁ hr hs := h _ _ _ _ (hx r s₁ hr hs)

/-- What must hold before `t`, run amid interference, for `Q` to hold after it. -/
abbrev during (O : Outside L S N E R W) (allow : N → L → S → W → Prop) (drift : S → S → Prop)
    (t : Proc L S N E R α) (Q : α → L → S → W → Prop) : L → S → W → Prop :=
  wp (interrupted O allow drift) t Q

section Rules

variable {O : Outside L S N E R W} {allow allow' : N → L → S → W → Prop} {drift : S → S → Prop}

@[simp] theorem interrupted_note {n : N} {l : L} {s : S} {K : W → Prop} {w : W} :
    (interrupted O allow drift).note n l s K w = (allow n l s w → K (O.mark n l s w)) := rfl

@[simp] theorem interrupted_call {e : E} {K : R e → L → S → W → Prop} {l : L} {s : S} {w : W} :
    (interrupted O allow drift).call e K l s w =
      ∀ r s₁, O.answers e w r = true → drift s s₁ → K r l s₁ (O.effect e r w) := rfl

theorem during_mono {t : Proc L S N E R α} {P Q : α → L → S → W → Prop}
    (h : ∀ a l s w, P a l s w → Q a l s w) {l s w} (ht : during O allow drift t P l s w) :
    during O allow drift t Q l s w :=
  wp_mono (interrupted_monotone O allow drift) h ht

/-- **Soundness.** Whatever `during` promises holds after every execution. -/
theorem Amid.sound {t : Proc L S N E R α} {l s w a l' s' w'}
    (h : Amid O allow drift t l s w a l' s' w') {Q : α → L → S → W → Prop}
    (ht : during O allow drift t Q l s w) : Q a l' s' w' := by
  induction h with
  | ret => exact ht
  | get _ ih => exact ih ht
  | put _ ih => exact ih ht
  | note ha _ ih => exact ih (ht ha)
  | call hr hs _ ih => exact ih (ht _ _ hr hs)

/-- An execution without interference is one amid interference that does nothing. -/
theorem Exec.amid (hdrift : ∀ s, drift s s) (hallow : ∀ n l s w, allow n l s w → allow' n l s w)
    {t : Proc L S N E R α} {l s w a l' s' w'} (h : Exec O allow t l s w a l' s' w') :
    Amid O allow' drift t l s w a l' s' w' := by
  induction h with
  | ret => exact .ret
  | get _ ih => exact .get ih
  | put _ ih => exact .put ih
  | note ha _ ih => exact .note (hallow _ _ _ _ ha) ih
  | call hr _ ih => exact .call hr (hdrift _) ih

/-- A process whose calls can be answered can run. -/
theorem exists_amid {oracle : (e : E) → W → R e} (horacle : ∀ e w, O.answers e w (oracle e w) = true)
    (hdrift : ∀ s, drift s s) (t : Proc L S N E R α) (l : L) (s : S) (w : W) :
    ∃ a l' s' w', Amid O (fun _ _ _ _ => True) drift t l s w a l' s' w' :=
  ⟨_, _, _, _, (exec_play O horacle t l s w).amid hdrift fun _ _ _ _ h => h⟩

/-- What `during` promises is what holds after every execution. -/
theorem during_iff {t : Proc L S N E R α} {Q : α → L → S → W → Prop} {l : L} {s : S} {w : W} :
    during O allow drift t Q l s w ↔
      ∀ a l' s' w', Amid O allow drift t l s w a l' s' w' → Q a l' s' w' := by
  refine ⟨fun h a l' s' w' hexec => hexec.sound h, fun h => ?_⟩
  induction t generalizing l s w with
  | ret a => exact h a l s w .ret
  | get k ih => exact ih l s fun a l' s' w' hexec => h a l' s' w' (.get hexec)
  | put l₁ s₁ k ih => exact ih fun a l' s' w' hexec => h a l' s' w' (.put hexec)
  | note n k ih => exact fun ha => ih fun a l' s' w' hexec => h a l' s' w' (.note ha hexec)
  | call e k ih =>
    exact fun r s₁ hr hs => ih r fun a l' s' w' hexec => h a l' s' w' (.call hr hs hexec)

end Rules

/-! ### Processes within a relation -/

/-- From these states, every section moves the local state within `ρ` and every mark is in `ν`;
after a call the shared state is arbitrary. -/
def WithinFrom (ρ : L → L → Prop) (ν : N → Prop) : Proc L S N E R α → L → S → Prop
  | .ret _, _, _ => True
  | .get k, l, s => WithinFrom ρ ν (k l s) l s
  | .put l' s' k, l, _ => ρ l l' ∧ WithinFrom ρ ν k l' s'
  | .note n k, l, s => ν n ∧ WithinFrom ρ ν k l s
  | .call _ k, l, _ => ∀ r s', WithinFrom ρ ν (k r) l s'

theorem withinFrom_look_bind {ρ : L → L → Prop} {ν : N → Prop} {f : L → S → α}
    {k : α → Proc L S N E R β} {l : L} {s : S} :
    WithinFrom ρ ν (Proc.look f >>= k) l s ↔ WithinFrom ρ ν (k (f l s)) l s := Iff.rfl

/-- Every section moves the local state within `ρ`, and every mark is in `ν`. -/
def Within (ρ : L → L → Prop) (ν : N → Prop) (t : Proc L S N E R α) : Prop :=
  ∀ l s, WithinFrom ρ ν t l s

namespace Within

variable {ρ ρ' : L → L → Prop} {ν ν' : N → Prop}

theorem pure (a : α) : Within ρ ν (Pure.pure a : Proc L S N E R α) := fun _ _ => trivial

theorem look (f : L → S → α) : Within ρ ν (Proc.look f : Proc L S N E R α) := fun _ _ => trivial

theorem ask (e : E) : Within ρ ν (Proc.ask e : Proc L S N E R (R e)) := fun _ _ _ _ => trivial

theorem mark {n : N} (h : ν n) : Within ρ ν (Proc.mark n : Proc L S N E R Unit) :=
  fun _ _ => ⟨h, trivial⟩

theorem act {f : L → S → α × L × S} (h : ∀ l s, ρ l (f l s).2.1) :
    Within ρ ν (Proc.act f : Proc L S N E R α) := fun l s => ⟨h l s, trivial⟩

theorem changeLocal {f : L → L} (h : ∀ l, ρ l (f l)) :
    Within ρ ν (Proc.changeLocal f : Proc L S N E R Unit) := fun l _ => ⟨h l, trivial⟩

theorem change (hρ : ∀ l, ρ l l) (f : S → S) :
    Within ρ ν (Proc.change f : Proc L S N E R Unit) := fun l _ => ⟨hρ l, trivial⟩

theorem actShared (hρ : ∀ l, ρ l l) (f : S → α × S) :
    Within ρ ν (Proc.actShared f : Proc L S N E R α) := fun l _ => ⟨hρ l, trivial⟩

theorem bind {t : Proc L S N E R α} {k : α → Proc L S N E R β} (ht : Within ρ ν t)
    (hk : ∀ a, Within ρ ν (k a)) : Within ρ ν (t >>= k) := by
  have run : ∀ (t : Proc L S N E R α) l s, WithinFrom ρ ν t l s → WithinFrom ρ ν (t.bind k) l s := by
    intro t
    induction t with
    | ret a => exact fun l s _ => hk a l s
    | get k' ih => exact fun l s h => ih l s l s h
    | put l' s' k' ih => exact fun _ _ h => ⟨h.1, ih _ _ h.2⟩
    | note n k' ih => exact fun l s h => ⟨h.1, ih l s h.2⟩
    | call e k' ih => exact fun l _ h r s' => ih r l s' (h r s')
  exact fun l s => run t l s (ht l s)

theorem forEach {body : α → Proc L S N E R Unit} (h : ∀ a, Within ρ ν (body a)) (as : List α) :
    Within ρ ν (Proc.forEach body as) := by
  induction as with
  | nil => exact .pure ()
  | cons a as ih => exact .bind (h a) fun _ => ih

theorem mono (hρ : ∀ l l', ρ l l' → ρ' l l') (hν : ∀ n, ν n → ν' n) {t : Proc L S N E R α}
    (ht : Within ρ ν t) : Within ρ' ν' t := by
  have run : ∀ (t : Proc L S N E R α) l s, WithinFrom ρ ν t l s → WithinFrom ρ' ν' t l s := by
    intro t
    induction t with
    | ret a => exact fun _ _ h => h
    | get k ih => exact fun l s h => ih l s l s h
    | put l' s' k ih => exact fun l _ h => ⟨hρ l l' h.1, ih _ _ h.2⟩
    | note n k ih => exact fun l s h => ⟨hν n h.1, ih l s h.2⟩
    | call e k ih => exact fun l _ h r s' => ih r l s' (h r s')
  exact fun l s => run t l s (ht l s)

/-- **The frame rule.** What the sections, the calls and the marks of a process each keep of its
local state and the world, the process keeps. -/
theorem during {O : Outside L S N E R W} {allow : N → L → S → W → Prop} {drift : S → S → Prop}
    {I : L → W → Prop} (hρ : ∀ {l l' w}, ρ l l' → I l w → I l' w)
    (hcall : ∀ {e r l w}, O.answers e w r = true → I l w → I l (O.effect e r w))
    (hmark : ∀ {n l s w}, ν n → I l w → I l (O.mark n l s w))
    {t : Proc L S N E R α} (ht : Within ρ ν t) {l : L} {s : S} {w : W} (h : I l w) :
    Proc.during O allow drift t (fun _ l' _ w' => I l' w') l s w := by
  have run : ∀ (t : Proc L S N E R α) l s w, WithinFrom ρ ν t l s → I l w →
      Proc.during O allow drift t (fun _ l' _ w' => I l' w') l s w := by
    intro t
    induction t with
    | ret a => exact fun _ _ _ _ hI => hI
    | get k ih => exact fun l s w ht hI => ih l s l s w ht hI
    | put l' s' k ih => exact fun _ _ w ht hI => ih l' s' w ht.2 (hρ ht.1 hI)
    | note n k ih => exact fun l s w ht hI _ => ih l s _ ht.2 (hmark ht.1 hI)
    | call e k ih => exact fun l _ w ht hI r s' hr _ => ih r l s' _ (ht r s') (hcall hr hI)
  exact run t l s w (ht l s) h

end Within

end Proc
