import Radian.Proc.Loop

/-!
# Stamped files

Files carry the time they were last written.  A reader that takes the time of a file *before* it reads
it knows what the file holds for as long as it has that time, however many writes there were while it
was reading.

- `Disk`, `Disk.Later`, `Disk.Still` — files, what writers make of them, and files nobody touches.
- `Disk.Dated`, `Disk.Tells` — a time that was taken, and what a file with that time holds.
- `Disk.Dated.tells`, `Disk.Dated.overtaken` — what is read after the time was taken is what the file
  holds while it has that time.
- `modified`, `stamps`, `read` — a reader's accesses, and their rules amid writers.
-/

namespace Stamped

variable {F C : Type}

/-- Files with the times they were last written, of which none lies ahead. -/
structure Disk (F C : Type) where
  now : Nat
  file : F → Option (Nat × C)
  past : ∀ {f t c}, file f = some (t, c) → t ≤ now

namespace Disk

def stamp (d : Disk F C) (f : F) : Option Nat := (d.file f).map Prod.fst

def body (d : Disk F C) (f : F) : Option C := (d.file f).map Prod.snd

theorem stamp_eq_none {d : Disk F C} {f : F} : d.stamp f = none ↔ d.body f = none := by
  rw [stamp, body, Option.map_eq_none_iff, Option.map_eq_none_iff]

/-- What writers make of a disk: a file that is written gets a time later than any before, and files in
`kept` are not removed. -/
structure Later (kept : F → Prop) (d d' : Disk F C) : Prop where
  now : d.now ≤ d'.now
  file : ∀ f, d'.file f = d.file f ∨ (∃ t c, d'.file f = some (t, c) ∧ d.now < t) ∨
    (d'.file f = none ∧ ¬ kept f)

/-- Time passes and nobody touches the files. -/
structure Still (d d' : Disk F C) : Prop where
  now : d.now ≤ d'.now
  file : d'.file = d.file

variable {kept : F → Prop} {d d₁ d' : Disk F C} {f : F} {t : Option Nat}

namespace Still

theorem refl (d : Disk F C) : Still d d := ⟨Nat.le_refl d.now, rfl⟩

theorem trans (h : Still d d₁) (h' : Still d₁ d') : Still d d' :=
  ⟨Nat.le_trans h.now h'.now, h'.file.trans h.file⟩

theorem later (h : Still d d') : Later kept d d' := ⟨h.now, fun f => .inl (congrFun h.file f)⟩

theorem stamp (h : Still d d') (f : F) : d'.stamp f = d.stamp f :=
  congrArg (fun file => (file f).map Prod.fst) h.file

theorem body (h : Still d d') (f : F) : d'.body f = d.body f :=
  congrArg (fun file => (file f).map Prod.snd) h.file

end Still

namespace Later

theorem refl (kept : F → Prop) (d : Disk F C) : Later kept d d := (Still.refl d).later

theorem trans (h : Later kept d d₁) (h' : Later kept d₁ d') : Later kept d d' := by
  refine ⟨Nat.le_trans h.now h'.now, fun f => ?_⟩
  rcases h'.file f with heq | ⟨t, c, hwritten, hlt⟩ | hremoved
  · rw [heq]
    exact h.file f
  · exact .inr (.inl ⟨t, c, hwritten, Nat.lt_of_le_of_lt h.now hlt⟩)
  · exact .inr (.inr hremoved)

/-- A file that has the time it had is unchanged, and was so all along. -/
theorem agree (h : Later kept d d₁) (h' : Later kept d₁ d') (hstamp : d'.stamp f = d.stamp f)
    (hthere : kept f ∨ d'.body f ≠ none) : d'.file f = d₁.file f := by
  rcases h'.file f with heq | ⟨t, c, hwritten, hlt⟩ | ⟨hremoved, hkept⟩
  · exact heq
  · have hsome : d.stamp f = some t := by rw [← hstamp, Disk.stamp, hwritten]; rfl
    obtain ⟨⟨t', c'⟩, hfile, ht⟩ := Option.map_eq_some_iff.mp hsome
    obtain rfl : t' = t := ht
    have hpast := d.past hfile
    have hnow := h.now
    omega
  · have hnone : d'.body f = none := by rw [Disk.body, hremoved]; rfl
    exact absurd hnone (hthere.resolve_left hkept)

end Later

/-! ### Times and contents -/

/-- Now or before, `f` had the time `t`. -/
def Dated (kept : F → Prop) (d : Disk F C) (f : F) (t : Option Nat) : Prop :=
  ∃ a : Disk F C, Later kept a d ∧ a.stamp f = t

/-- From now on, `f` holds `b` whenever it has the time `t`. -/
def Tells (kept : F → Prop) (d : Disk F C) (f : F) (t : Option Nat) (b : Option C) : Prop :=
  ∀ d' : Disk F C, Later kept d d' → d'.stamp f = t → (kept f ∨ d'.body f ≠ none) → d'.body f = b

theorem Dated.self (kept : F → Prop) (d : Disk F C) (f : F) : Dated kept d f (d.stamp f) :=
  ⟨d, .refl kept d, rfl⟩

theorem Dated.later (h : Dated kept d f t) (hd : Later kept d d') : Dated kept d' f t := by
  obtain ⟨a, ha, hstamp⟩ := h
  exact ⟨a, ha.trans hd, hstamp⟩

theorem Tells.later {b : Option C} (h : Tells kept d f t b) (hd : Later kept d d') :
    Tells kept d' f t b := fun d₂ h₂ => h d₂ (hd.trans h₂)

/-- **What is read after the time was taken** is what the file holds while it has that time. -/
theorem Dated.tells (h : Dated kept d f t) : Tells kept d f t (d.body f) := by
  obtain ⟨a, ha, rfl⟩ := h
  intro d' hd' hstamp hthere
  exact congrArg (Option.map Prod.snd) (ha.agree hd' hstamp hthere)

/-- A file that was written in between does not come back to the time it had, so nothing is promised of
what was read of it. -/
theorem Dated.overtaken (h : Dated kept d f t) (hd : Later kept d d₁)
    (hmoved : d₁.stamp f ≠ d.stamp f) (b : Option C) : Tells kept d₁ f t b := by
  obtain ⟨a, ha, rfl⟩ := h
  intro d' hd' hstamp hthere
  have hsame : d'.file f = d₁.file f := (ha.trans hd).agree hd' hstamp hthere
  have hbefore : d'.file f = d.file f := ha.agree (hd.trans hd') hstamp hthere
  exact absurd (congrArg (Option.map Prod.fst) (hsame.symm.trans hbefore)) hmoved

end Disk

/-! ### Readers -/

/-- The points at which writers may act: a look at a file's time, the reading of a file, and anything
else that is awaited. -/
inductive Access (F : Type) where
  | stat (f : F)
  | read (f : F)
  | pause

/-- What a read gives that a writer overtakes; no other access looks at it. -/
abbrev Access.Answer (C : Type) (_ : Access F) : Type := Option C

section Readers

variable {L N : Type}

/-- The time a file was last written, if there is one. -/
def modified (f : F) : Proc L (Disk F C) N (Access F) (Access.Answer C) (Option Nat) := do
  let _ ← Proc.ask (Access.stat f)
  Proc.look fun _ d => d.stamp f

/-- The times of several files. -/
def stamps : List F → Proc L (Disk F C) N (Access F) (Access.Answer C) (List (Option Nat))
  | [] => pure []
  | f :: fs => do
      let t ← modified f
      let ts ← stamps fs
      pure (t :: ts)

/-- What a file holds, if it can be found. -/
def read (f : F) : Proc L (Disk F C) N (Access F) (Access.Answer C) (Option C) := do
  let before ← Proc.look fun _ d => d.stamp f
  let torn ← Proc.ask (Access.read f)
  Proc.look fun _ d => if d.stamp f = before then d.body f else torn

variable {kept : F → Prop} {allow : N → L → Disk F C → List N → Prop} {f : F} {l : L} {d : Disk F C}
  {w : List N}

/-- Nothing but writers acts on the disk. -/
abbrev outside (L N F C : Type) : Outside L (Disk F C) N (Access F) (Access.Answer C) (List N) :=
  Proc.recorder L (Disk F C) N (Access F) (Access.Answer C)

theorem during_modified {Q : Option Nat → L → Disk F C → List N → Prop}
    (h : ∀ d', Disk.Later kept d d' → Q (d'.stamp f) l d' w) :
    Proc.during (outside L N F C) allow (Disk.Later kept) (modified f) Q l d w := by
  simp only [modified, Proc.during, Proc.wp_bind, Proc.wp_ask, Proc.interrupted_call, Proc.wp_look]
  exact fun _ d' _ hd' => h d' hd'

theorem during_stamps {fs : List F} {Q : List (Option Nat) → L → Disk F C → List N → Prop}
    (h : ∀ ts d', Disk.Later kept d d' → List.Forall₂ (d'.Dated kept) fs ts → Q ts l d' w) :
    Proc.during (outside L N F C) allow (Disk.Later kept) (stamps fs) Q l d w := by
  induction fs generalizing d Q with
  | nil => exact h [] d (.refl kept d) .nil
  | cons f fs ih =>
    rw [stamps, Proc.during, Proc.wp_bind]
    apply during_modified
    intro d₁ h₁
    rw [Proc.wp_bind]
    apply ih
    intro ts d' h' hdated
    exact h _ d' (h₁.trans h') (.cons ((Disk.Dated.self kept d₁ f).later h') hdated)

theorem during_read {t : Option Nat} (hdated : d.Dated kept f t)
    {Q : Option C → L → Disk F C → List N → Prop}
    (h : ∀ b d', Disk.Later kept d d' → d'.Tells kept f t b → Q b l d' w) :
    Proc.during (outside L N F C) allow (Disk.Later kept) (read f) Q l d w := by
  simp only [read, Proc.during, Proc.wp_bind, Proc.wp_ask, Proc.interrupted_call, Proc.wp_look]
  intro torn d' _ hd'
  apply h _ d' hd'
  split
  · exact (hdated.later hd').tells
  · rename_i hmoved
    exact hdated.overtaken hd' hmoved torn

theorem during_modified_still {Q : Option Nat → L → Disk F C → List N → Prop}
    (h : ∀ d', Disk.Still d d' → Q (d.stamp f) l d' w) :
    Proc.during (outside L N F C) allow Disk.Still (modified f) Q l d w := by
  simp only [modified, Proc.during, Proc.wp_bind, Proc.wp_ask, Proc.interrupted_call, Proc.wp_look]
  intro _ d' _ hd'
  rw [hd'.stamp f]
  exact h d' hd'

theorem during_stamps_still {fs : List F} {Q : List (Option Nat) → L → Disk F C → List N → Prop}
    (h : ∀ d', Disk.Still d d' → Q (fs.map d.stamp) l d' w) :
    Proc.during (outside L N F C) allow Disk.Still (stamps fs) Q l d w := by
  induction fs generalizing d Q with
  | nil => exact h d (.refl d)
  | cons f fs ih =>
    rw [stamps, Proc.during, Proc.wp_bind]
    apply during_modified_still
    intro d₁ h₁
    rw [Proc.wp_bind]
    apply ih
    intro d' h'
    rw [List.map_congr_left fun f _ => h₁.stamp f]
    exact h d' (h₁.trans h')

theorem during_read_still {Q : Option C → L → Disk F C → List N → Prop}
    (h : ∀ d', Disk.Still d d' → Q (d.body f) l d' w) :
    Proc.during (outside L N F C) allow Disk.Still (read f) Q l d w := by
  simp only [read, Proc.during, Proc.wp_bind, Proc.wp_ask, Proc.interrupted_call, Proc.wp_look]
  intro torn d' _ hd'
  rw [if_pos (hd'.stamp f), hd'.body f]
  exact h d' hd'

/-- A process can run while nobody touches the files. -/
theorem exists_amid_still {α : Type} (t : Proc L (Disk F C) N (Access F) (Access.Answer C) α) (l : L)
    (d : Disk F C) (w : List N) :
    ∃ a l' d' w', Proc.Amid (outside L N F C) (fun _ _ _ _ => True) Disk.Still t l d w a l' d' w' := by
  have hnone : ∀ (e : Access F) (w : List N), (outside L N F C).answers e w none = true :=
    fun _ _ => rfl
  exact Proc.exists_amid hnone Disk.Still.refl t l d w

end Readers

end Stamped
