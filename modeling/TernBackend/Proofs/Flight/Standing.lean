import TernBackend.Proofs.Flight.Move
import TernBackend.Proofs.Flight.WaitGraph

/-!
# Standings

Where a thread stands towards the cells can be read off its stack and its stage (`Thread.standing`).
`Consistent` ties these standings to the shared parts of a state: to the notes who is computing a cell
and the stored answers, to the locks, and to the table of waits.

A move changes the standing of one thread only (`Differs`), announcements apart. What follows from that
for each part is said once here, for a thread that takes a lock, gives one back, or does neither.
-/

namespace TernBackend

/-- Where a thread stands towards the cells. -/
structure Standing (τ κ α : Type) where
  /-- The cells that it has noted itself as computing. -/
  marked : List κ
  /-- The cells whose closures it is in. -/
  inside : List κ
  /-- The cell whose lock it holds. -/
  holds : Option κ := none
  /-- The cell that it waits for, from falling asleep until its entry is removed. -/
  awaits : Option κ := none
  /-- The cell whose announcement it sleeps for. -/
  sleeps : Option κ := none
  /-- The cell that it is about to consult the table for, and who was computing it. -/
  behind : Option (κ × τ) := none
  /-- The cell that it has begun to land and has not announced. -/
  notifies : Option κ := none
  /-- The cell whose closure has ended and that it has not left, and how the closure ended. -/
  ends : Option (κ × Outcome α) := none

namespace Thread

variable {τ κ β α : Type}

def cellsOf (stack : List (Pending κ β α)) : List κ := stack.map (·.call.cell)

def standing : Thread τ κ β α → Standing τ κ α
  | ⟨stack, .computing _⟩ | ⟨stack, .ended _⟩ | ⟨stack, .calling .arrive _⟩ | ⟨stack, .calling .enter _⟩ =>
    ⟨cellsOf stack, cellsOf stack, none, none, none, none, none, none⟩
  | ⟨stack, .calling .inspect p⟩ =>
    ⟨cellsOf stack, cellsOf stack, p.call.cell, none, none, none, none, none⟩
  | ⟨stack, .calling (.consult r) p⟩ =>
    ⟨cellsOf stack, cellsOf stack, p.call.cell, none, none, some (p.call.cell, r), none, none⟩
  | ⟨stack, .calling .asleep p⟩ =>
    ⟨cellsOf stack, cellsOf stack, none, p.call.cell, p.call.cell, none, none, none⟩
  | ⟨stack, .calling .woken p⟩ =>
    ⟨cellsOf stack, cellsOf stack, none, p.call.cell, none, none, none, none⟩
  | ⟨stack, .calling .unlist p⟩ =>
    ⟨cellsOf stack, cellsOf stack, p.call.cell, p.call.cell, none, none, none, none⟩
  | ⟨p :: stack, .landing .land o⟩ =>
    ⟨p.call.cell :: cellsOf stack, cellsOf stack, none, none, none, none, none, some (p.call.cell, o)⟩
  | ⟨p :: stack, .landing .clear o⟩ =>
    ⟨cellsOf stack, cellsOf stack, p.call.cell, none, none, none, p.call.cell, some (p.call.cell, o)⟩
  | ⟨p :: stack, .landing .announce o⟩ =>
    ⟨cellsOf stack, cellsOf stack, none, none, none, none, p.call.cell, some (p.call.cell, o)⟩
  | ⟨[], .landing _ _⟩ => ⟨[], [], none, none, none, none, none, none⟩

theorem standing_wakeFor [DecidableEq κ] (c : κ) (th : Thread τ κ β α) :
    (State.wakeFor c th).standing =
      if th.standing.sleeps = some c then { th.standing with sleeps := none } else th.standing := by
  rcases th with ⟨stack, stage⟩
  cases stage with
  | calling w p =>
    cases w with
    | asleep => by_cases hc : p.call.cell = c <;> simp [State.wakeFor, standing, hc]
    | _ => simp [State.wakeFor, standing]
  | landing d o => cases d <;> cases stack <;> simp [State.wakeFor, standing]
  | computing rest => simp [State.wakeFor, standing]
  | ended o => simp [State.wakeFor, standing]

theorem inside_sublist_marked (th : Thread τ κ β α) : th.standing.inside.Sublist th.standing.marked := by
  rcases th with ⟨stack, stage⟩
  cases stage with
  | calling w p => cases w <;> exact List.Sublist.refl _
  | landing d o =>
    cases stack with
    | nil => cases d <;> exact List.Sublist.refl _
    | cons p stack => cases d <;> simp [standing]
  | computing rest => exact List.Sublist.refl _
  | ended o => exact List.Sublist.refl _

theorem inside_subset_marked (th : Thread τ κ β α) : th.standing.inside ⊆ th.standing.marked :=
  th.inside_sublist_marked.subset

theorem holds_of_behind {th : Thread τ κ β α} {c : κ} {r : τ} (h : th.standing.behind = some (c, r)) :
    th.standing.holds = some c := by
  rcases th with ⟨stack, stage⟩
  cases stage with
  | calling w p => cases w <;> simp_all [standing]
  | landing d o => cases d <;> cases stack <;> simp [standing] at h
  | computing rest => simp [standing] at h
  | ended o => simp [standing] at h

theorem calling_of_awaits {th : Thread τ κ β α} {d : κ} (h : th.standing.awaits = some d) :
    ∃ stack w p, th = ⟨stack, .calling w p⟩ ∧ p.call.cell = d := by
  rcases th with ⟨stack, stage⟩
  cases stage with
  | calling w p =>
    cases w with
    | asleep | woken | unlist => exact ⟨stack, _, p, rfl, Option.some.inj h⟩
    | _ => cases h
  | landing d o => cases d <;> cases stack <;> cases h
  | computing rest => cases h
  | ended o => cases h

theorem inside_calling (stack : List (Pending κ β α)) (w : Waypoint τ) (p : Pending κ β α) :
    (⟨stack, .calling w p⟩ : Thread τ κ β α).standing.inside = cellsOf stack := by
  cases w <;> rfl

theorem marked_calling (stack : List (Pending κ β α)) (w : Waypoint τ) (p : Pending κ β α) :
    (⟨stack, .calling w p⟩ : Thread τ κ β α).standing.marked = cellsOf stack := by
  cases w <;> rfl

theorem notifies_calling (stack : List (Pending κ β α)) (w : Waypoint τ) (p : Pending κ β α) :
    (⟨stack, .calling w p⟩ : Thread τ κ β α).standing.notifies = none := by
  cases w <;> rfl

end Thread

namespace State

variable {τ κ β α : Type}

def standing (s : State τ κ β α) (t : τ) : Standing τ κ α := (s.threads t).standing

/-- The notes who is computing a cell, and the stored answers, agree with the standings. -/
structure Noted (s : State τ κ β α) : Prop where
  /-- A cell is noted as being computed by those, and only those, who have noted it. -/
  runner_iff : ∀ c t, (s.cells c).runner = some t ↔ c ∈ (s.standing t).marked
  nodup : ∀ t, (s.standing t).marked.Nodup
  /-- A cell whose closure is running has no answer yet. -/
  unstored : ∀ t c, c ∈ (s.standing t).inside → (s.cells c).stored = none
  answered : ∀ t c a, (s.standing t).ends = some (c, .answered a) → (s.cells c).stored = some a
  panicked : ∀ t c m, (s.standing t).ends = some (c, .panicked m) → c ∈ (s.standing t).marked →
    (s.cells c).stored = none

/-- The holders of locks agree with the standings. -/
structure Locked (s : State τ κ β α) : Prop where
  lock_iff : ∀ c t, s.locks c = some t ↔ (s.standing t).holds = some c
  /-- Who was found computing a cell still is, for the lock of the cell is held. -/
  behind : ∀ t c r, (s.standing t).behind = some (c, r) → (s.cells c).runner = some r ∧ r ≠ t

/-- The table of waits agrees with the standings. -/
structure Tabled (s : State τ κ β α) : Prop where
  /-- An entry tells of a thread that waits for a cell, and of the one that computes or just lands it. -/
  entry : ∀ w r c, ⟨w, r, c⟩ ∈ s.waits → (s.standing w).awaits = some c ∧ r ≠ w ∧
    ((s.cells c).runner = some r ∨ (s.standing r).notifies = some c ∧ (s.standing r).holds = some c)
  single : WaitEdge.Single s.waits
  /-- A sleeper has an entry, or its cell is about to be announced. -/
  listed : ∀ t c, (s.standing t).sleeps = some c →
    (∃ r, ⟨t, r, c⟩ ∈ s.waits) ∨ ∃ u, (s.standing u).notifies = some c
  acyclic : WaitEdge.Acyclic s.waits

/-- What is the case in every reachable state. -/
structure Consistent (s : State τ κ β α) : Prop extends s.Noted, s.Locked, s.Tabled

/-! ## Standings after a change -/

section
variable (s : State τ κ β α) (t u : τ) (c : κ)

@[simp] theorem standing_withThread [DecidableEq τ] (th : Thread τ κ β α) :
    (s.withThread t th).standing u = if u = t then th.standing else s.standing u :=
  apply_ite Thread.standing _ _ _

@[simp] theorem standing_withCell [DecidableEq κ] (x : Cell τ α) :
    (s.withCell c x).standing u = s.standing u := rfl

@[simp] theorem standing_withLock [DecidableEq κ] (o : Option τ) :
    (s.withLock c o).standing u = s.standing u := rfl

@[simp] theorem standing_withWaits (w : List (WaitEdge τ κ)) :
    (s.withWaits w).standing u = s.standing u := rfl

@[simp] theorem standing_announce [DecidableEq κ] :
    (s.announce c).standing u =
      if (s.standing u).sleeps = some c then { s.standing u with sleeps := none } else s.standing u :=
  Thread.standing_wakeFor c (s.threads u)

end

/-- Only the standing of `t` is another one: it is `x` now. -/
def Differs [DecidableEq τ] (s s' : State τ κ β α) (t : τ) (x : Standing τ κ α) : Prop :=
  ∀ u, s'.standing u = if u = t then x else s.standing u

section
variable [DecidableEq τ] {s s' : State τ κ β α} {t : τ} {x : Standing τ κ α} {c : κ}

theorem Differs.self (h : s.Differs s' t x) : s'.standing t = x := by rw [h t, if_pos rfl]

theorem Differs.other (h : s.Differs s' t x) {u : τ} (hu : u ≠ t) : s'.standing u = s.standing u := by
  rw [h u, if_neg hu]

theorem Differs.congr {γ : Type} (h : s.Differs s' t x) (f : Standing τ κ α → γ)
    (hf : f x = f (s.standing t)) (u : τ) : f (s'.standing u) = f (s.standing u) := by
  by_cases hu : u = t
  · subst hu
    rw [h.self, hf]
  · rw [h.other hu]

end

/-! ## What a move leaves alone -/

theorem Noted.frame {s s' : State τ κ β α} (hs : s.Noted) (hc : ∀ c, s'.cells c = s.cells c)
    (hm : ∀ t, (s'.standing t).marked = (s.standing t).marked)
    (hi : ∀ t, (s'.standing t).inside = (s.standing t).inside)
    (he : ∀ t x, (s'.standing t).ends = some x → (s.standing t).ends = some x) : s'.Noted where
  runner_iff c t := by rw [hc, hm]; exact hs.runner_iff c t
  nodup t := by rw [hm]; exact hs.nodup t
  unstored t c h := by rw [hc]; exact hs.unstored t c (hi t ▸ h)
  answered t c a h := by rw [hc]; exact hs.answered t c a (he _ _ h)
  panicked t c m h hmem := by rw [hc]; exact hs.panicked t c m (he _ _ h) (hm t ▸ hmem)

theorem Locked.frame {s s' : State τ κ β α} (hs : s.Locked) (hl : ∀ c, s'.locks c = s.locks c)
    (hh : ∀ t, (s'.standing t).holds = (s.standing t).holds)
    (hb : ∀ t, (s'.standing t).behind = (s.standing t).behind)
    (hr : ∀ c, (s'.cells c).runner = (s.cells c).runner) : s'.Locked where
  lock_iff c t := by rw [hl, hh]; exact hs.lock_iff c t
  behind t c r h := by rw [hr]; exact hs.behind t c r (hb t ▸ h)

/-- Who waits and who announces may change, as long as the entries stay true and nobody falls asleep. -/
theorem Tabled.frame {s s' : State τ κ β α} (hs : s.Tabled) (hw : s'.waits = s.waits)
    (ha : ∀ t, (s'.standing t).awaits = (s.standing t).awaits)
    (hr : ∀ w r c, ⟨w, r, c⟩ ∈ s.waits →
      (s.cells c).runner = some r ∨ (s.standing r).notifies = some c ∧ (s.standing r).holds = some c →
      (s'.cells c).runner = some r ∨ (s'.standing r).notifies = some c ∧ (s'.standing r).holds = some c)
    (hl : ∀ t c, (s'.standing t).sleeps = some c → (s.standing t).sleeps = some c ∧
      ∀ u, (s.standing u).notifies = some c → (s'.standing u).notifies = some c) : s'.Tabled where
  entry w r c h := by
    rw [hw] at h
    obtain ⟨h1, h2, h3⟩ := hs.entry w r c h
    exact ⟨(ha w).trans h1, h2, hr w r c h h3⟩
  single := hw ▸ hs.single
  listed t c h := by
    obtain ⟨h1, h2⟩ := hl t c h
    rw [hw]
    exact (hs.listed t c h1).imp_right fun ⟨u, hu⟩ => ⟨u, h2 u hu⟩
  acyclic := hw ▸ hs.acyclic

/-! ## Parts of moves -/

variable [DecidableEq τ] {s s' : State τ κ β α} {t : τ} {x : Standing τ κ α} {c : κ}

/-- A thread that stays where it is as to its computations leaves the notes as they are. -/
theorem Noted.of_differs (hs : s.Noted) (h : s.Differs s' t x) (hc : ∀ c, s'.cells c = s.cells c)
    (hm : x.marked = (s.standing t).marked) (hi : x.inside = (s.standing t).inside)
    (he : x.ends = (s.standing t).ends) : s'.Noted :=
  hs.frame hc (h.congr (·.marked) hm) (h.congr (·.inside) hi) fun u _ hu =>
    (h.congr (·.ends) he u).symm.trans hu

theorem Locked.of_differs (hs : s.Locked) (h : s.Differs s' t x) (hl : ∀ c, s'.locks c = s.locks c)
    (hh : x.holds = (s.standing t).holds) (hb : x.behind = (s.standing t).behind)
    (hr : ∀ c, (s'.cells c).runner = (s.cells c).runner) : s'.Locked :=
  hs.frame hl (h.congr (·.holds) hh) (h.congr (·.behind) hb) hr

/-- Who was behind another thread stays so when only `t` moves, and `t` is behind nobody afterwards. -/
theorem Locked.behind_of_differs (hs : s.Locked) (h : s.Differs s' t x) (hb : x.behind = none)
    (hr : ∀ u d r, (s.standing u).behind = some (d, r) → (s'.cells d).runner = (s.cells d).runner)
    (u : τ) (d : κ) (r : τ) (hud : (s'.standing u).behind = some (d, r)) :
    (s'.cells d).runner = some r ∧ r ≠ u := by
  by_cases hu : u = t
  · subst hu
    rw [h.self, hb] at hud
    cases hud
  · rw [h.other hu] at hud
    rw [hr u d r hud]
    exact hs.behind u d r hud

/-- `t` takes the free lock of `c`. -/
theorem Locked.take [DecidableEq κ] (hs : s.Locked) (h : s.Differs s' t x) (hl : s.locks c = none)
    (hlocks : ∀ d, s'.locks d = if d = c then some t else s.locks d)
    (hh : (s.standing t).holds = none) (hx : x.holds = some c) (hb : x.behind = none)
    (hr : ∀ u d r, (s.standing u).behind = some (d, r) → (s'.cells d).runner = (s.cells d).runner) :
    s'.Locked where
  lock_iff d u := by
    rw [hlocks]
    by_cases hu : u = t
    · subst hu
      rw [h.self, hx]
      by_cases hd : d = c
      · simp [hd]
      · have hfree : s.locks d ≠ some u := fun hlock => by
          rw [(hs.lock_iff d u).1 hlock] at hh
          cases hh
        rw [if_neg hd]
        exact iff_of_false hfree fun heq => hd (Option.some.inj heq).symm
    · rw [h.other hu, ← hs.lock_iff d u]
      by_cases hd : d = c
      · subst hd
        rw [if_pos rfl, hl]
        exact iff_of_false (fun heq => hu (Option.some.inj heq).symm) nofun
      · rw [if_neg hd]
  behind := hs.behind_of_differs h hb hr

/-- `t` gives the lock of `c` back. -/
theorem Locked.give [DecidableEq κ] (hs : s.Locked) (h : s.Differs s' t x)
    (hlocks : ∀ d, s'.locks d = if d = c then none else s.locks d)
    (hh : (s.standing t).holds = some c) (hx : x.holds = none) (hb : x.behind = none)
    (hr : ∀ u d r, (s.standing u).behind = some (d, r) → (s'.cells d).runner = (s.cells d).runner) :
    s'.Locked where
  lock_iff d u := by
    have hmine := (hs.lock_iff c t).2 hh
    rw [hlocks]
    by_cases hu : u = t
    · subst hu
      rw [h.self, hx]
      refine iff_of_false (fun hlock => ?_) nofun
      by_cases hd : d = c
      · rw [if_pos hd] at hlock
        cases hlock
      · rw [if_neg hd, hs.lock_iff d u, hh] at hlock
        exact hd (Option.some.inj hlock).symm
    · rw [h.other hu, ← hs.lock_iff d u]
      by_cases hd : d = c
      · subst hd
        rw [if_pos rfl, hmine]
        exact iff_of_false nofun fun heq => hu (Option.some.inj heq).symm
      · rw [if_neg hd]
  behind := hs.behind_of_differs h hb hr

/-- The table stays as it is when `t` does not fall asleep, and goes on to announce, under the lock, what
it was to announce. -/
theorem Tabled.of_differs (hs : s.Tabled) (h : s.Differs s' t x) (hw : s'.waits = s.waits)
    (ha : x.awaits = (s.standing t).awaits) (hsl : ∀ d, x.sleeps = some d → (s.standing t).sleeps = some d)
    (hn : x.notifies = (s.standing t).notifies)
    (hh : ∀ d, (s.standing t).notifies = some d → x.holds = (s.standing t).holds)
    (hr : ∀ w r d, ⟨w, r, d⟩ ∈ s.waits → (s.cells d).runner = some r → (s'.cells d).runner = some r) :
    s'.Tabled := by
  have hnotifies := h.congr (·.notifies) hn
  refine hs.frame hw (h.congr (·.awaits) ha) (fun w r d hmem hrun => ?_) fun u d hu => ⟨?_, fun v hv => ?_⟩
  · rcases hrun with hrun | ⟨hnot, hhold⟩
    · exact .inl (hr w r d hmem hrun)
    · refine .inr ⟨(hnotifies r).trans hnot, ?_⟩
      by_cases hrt : r = t
      · subst hrt
        rw [h.self, hh d hnot, hhold]
      · rw [h.other hrt, hhold]
  · by_cases hut : u = t
    · subst hut
      rw [h.self] at hu
      exact hsl d hu
    · rwa [h.other hut] at hu
  · exact (hnotifies v).trans hv

end State

end TernBackend
