import TernBackend.Proofs.Flight.Standing

/-!
# Consistency of the machine

Every reachable state is consistent. Most moves change no standing and no shared part. For each of the
others there is one lemma, and `Consistent.move` puts them together.

Two things are not plain. A sleeper without an entry in the table is about to be woken, for only a
landing removes the entries of others, and it announces the cell afterwards. And a new entry closes no
cycle, for the walk that looked for one misses nothing while no thread has two entries.
-/

namespace TernBackend.State

variable {τ κ β α : Type} [DecidableEq τ] {s : State τ κ β α} {t : τ} {th : Thread τ κ β α} {c : κ}

/-! ## Moves -/

theorem differs_withThread (s s₁ : State τ κ β α) (h : ∀ u, s₁.standing u = s.standing u) (t : τ)
    (th : Thread τ κ β α) : s.Differs (s₁.withThread t th) t th.standing := by
  intro u
  rw [standing_withThread, h u]

theorem Consistent.quiet (hs : s.Consistent) (hth : th.standing = s.standing t) :
    (s.withThread t th).Consistent := by
  have h := differs_withThread s s (fun _ => rfl) t th
  rw [hth] at h
  exact ⟨hs.toNoted.of_differs h (fun _ => rfl) rfl rfl rfl,
    hs.toLocked.of_differs h (fun _ => rfl) rfl rfl fun _ => rfl,
    hs.toTabled.of_differs h rfl rfl (fun _ => id) rfl (fun _ _ => rfl) fun _ _ _ _ => id⟩

/-- A thread finds another one computing. -/
theorem Consistent.find (hs : s.Consistent) {r : τ} (hr : (s.cells c).runner = some r) (hne : r ≠ t)
    (hth : th.standing = { s.standing t with behind := some (c, r) }) :
    (s.withThread t th).Consistent := by
  have h := differs_withThread s s (fun _ => rfl) t th
  rw [hth] at h
  constructor
  case toNoted => exact hs.toNoted.of_differs h (fun _ => rfl) rfl rfl rfl
  case toLocked =>
    constructor
    case lock_iff =>
      intro d u
      rw [h.congr (·.holds) rfl]
      exact hs.lock_iff d u
    case behind =>
      intro u d q hud
      by_cases hu : u = t
      · subst hu
        rw [h.self] at hud
        cases hud
        exact ⟨hr, hne⟩
      · rw [h.other hu] at hud
        exact hs.behind u d q hud
  case toTabled =>
    exact hs.toTabled.of_differs h rfl rfl (fun _ => id) rfl (fun _ _ => rfl) fun _ _ _ _ => id

/-- A sleeper wakes up. -/
theorem Consistent.wake (hs : s.Consistent) (hth : th.standing = { s.standing t with sleeps := none }) :
    (s.withThread t th).Consistent := by
  have h := differs_withThread s s (fun _ => rfl) t th
  rw [hth] at h
  exact ⟨hs.toNoted.of_differs h (fun _ => rfl) rfl rfl rfl,
    hs.toLocked.of_differs h (fun _ => rfl) rfl rfl fun _ => rfl,
    hs.toTabled.of_differs h rfl rfl nofun rfl (fun _ _ => rfl) fun _ _ _ _ => id⟩

/-- A thread that is awake removes its entry. -/
theorem Consistent.unlist (hs : s.Consistent) (hsl : (s.standing t).sleeps = none)
    (hth : th.standing = { s.standing t with awaits := none }) :
    ((s.withWaits (WaitEdge.withoutWaiter s.waits t)).withThread t th).Consistent := by
  have h := differs_withThread s (s.withWaits (WaitEdge.withoutWaiter s.waits t)) (fun _ => rfl) t th
  rw [hth] at h
  have hmem : ∀ {e}, e ∈ WaitEdge.withoutWaiter s.waits t ↔ e ∈ s.waits ∧ e.waiter ≠ t := by
    simp [WaitEdge.withoutWaiter]
  have hnotifies := h.congr (·.notifies) rfl
  have hholds := h.congr (·.holds) rfl
  constructor
  case toNoted => exact hs.toNoted.of_differs h (fun _ => rfl) rfl rfl rfl
  case toLocked => exact hs.toLocked.of_differs h (fun _ => rfl) rfl rfl fun _ => rfl
  case toTabled =>
    constructor
    case entry =>
      intro w r d hwait
      obtain ⟨hold, hw⟩ := hmem.1 hwait
      rw [h.other hw, hnotifies r, hholds r]
      exact hs.entry w r d hold
    case single => exact hs.single.filter _
    case listed =>
      intro u d hu
      -- a sleeper is another thread than `t`, so its entry is not among those removed
      have hut : u ≠ t := fun hut => by
        rw [hut, h.self] at hu
        cases hsl.symm.trans hu
      rw [h.other hut] at hu
      refine (hs.listed u d hu).imp (fun ⟨r, hr⟩ => ⟨r, hmem.2 ⟨hr, hut⟩⟩) fun ⟨v, hv⟩ => ⟨v, ?_⟩
      exact (hnotifies v).trans hv
    case acyclic => exact hs.acyclic.mono List.filter_sublist.subset

/-- The closure of a cell ends in a panic. -/
theorem Consistent.panic (hs : s.Consistent) (rest : List κ) {m : String}
    (hi : (s.standing t).inside = c :: rest)
    (hth : th.standing = { s.standing t with inside := rest, ends := some (c, .panicked m) }) :
    (s.withThread t th).Consistent := by
  have h := differs_withThread s s (fun _ => rfl) t th
  rw [hth] at h
  have hmarked := h.congr (·.marked) rfl
  constructor
  case toNoted =>
    constructor
    case runner_iff =>
      intro d u
      rw [hmarked u]
      exact hs.runner_iff d u
    case nodup =>
      intro u
      rw [hmarked u]
      exact hs.nodup u
    case unstored =>
      intro u d hd
      by_cases hu : u = t
      · subst hu
        rw [h.self] at hd
        exact hs.unstored u d (hi ▸ List.mem_cons_of_mem c hd)
      · rw [h.other hu] at hd
        exact hs.unstored u d hd
    case answered =>
      intro u d b hd
      by_cases hu : u = t
      · subst hu
        rw [h.self] at hd
        cases hd
      · rw [h.other hu] at hd
        exact hs.answered u d b hd
    case panicked =>
      intro u d m' hd hmark
      by_cases hu : u = t
      · subst hu
        rw [h.self] at hd
        cases hd
        exact hs.unstored u c (hi ▸ List.mem_cons_self)
      · rw [h.other hu] at hd hmark
        exact hs.panicked u d m' hd hmark
  case toLocked => exact hs.toLocked.of_differs h (fun _ => rfl) rfl rfl fun _ => rfl
  case toTabled =>
    exact hs.toTabled.of_differs h rfl rfl (fun _ => id) rfl (fun _ _ => rfl) fun _ _ _ _ => id

variable [DecidableEq κ]

/-- A thread takes a free lock. -/
theorem Consistent.acquire (hs : s.Consistent) (hl : s.locks c = none) (hh : (s.standing t).holds = none)
    (hn : (s.standing t).notifies = none)
    (hth : th.standing = { s.standing t with holds := some c, behind := none }) :
    ((s.withLock c (some t)).withThread t th).Consistent := by
  have h := differs_withThread s (s.withLock c (some t)) (fun _ => rfl) t th
  rw [hth] at h
  exact ⟨hs.toNoted.of_differs h (fun _ => rfl) rfl rfl rfl,
    hs.toLocked.take h hl (fun _ => rfl) hh rfl rfl fun _ _ _ _ => rfl,
    hs.toTabled.of_differs h rfl rfl (fun _ => id) rfl (fun d hd => by rw [hn] at hd; cases hd)
      fun _ _ _ _ => id⟩

/-- A thread that is not landing gives its lock back. -/
theorem Consistent.release (hs : s.Consistent) (hh : (s.standing t).holds = some c)
    (hn : (s.standing t).notifies = none)
    (hth : th.standing = { s.standing t with holds := none, behind := none }) :
    ((s.withLock c none).withThread t th).Consistent := by
  have h := differs_withThread s (s.withLock c none) (fun _ => rfl) t th
  rw [hth] at h
  exact ⟨hs.toNoted.of_differs h (fun _ => rfl) rfl rfl rfl,
    hs.toLocked.give h (fun _ => rfl) hh rfl rfl fun _ _ _ _ => rfl,
    hs.toTabled.of_differs h rfl rfl (fun _ => id) rfl (fun d hd => by rw [hn] at hd; cases hd)
      fun _ _ _ _ => id⟩

/-- A thread starts the closure of a cell that nobody computes. No entry is about that cell, for such
an entry would tell of a landing that holds the lock. -/
theorem Consistent.start (hs : s.Consistent) (hr : (s.cells c).runner = none)
    (hnone : (s.cells c).stored = none) (hh : (s.standing t).holds = some c)
    (hn : (s.standing t).notifies = none) (he : (s.standing t).ends = none)
    (hth : th.standing = { s.standing t with
      marked := c :: (s.standing t).marked, inside := c :: (s.standing t).inside,
      holds := none, behind := none }) :
    (((s.withCell c ((s.cells c).taken t)).withLock c none).withThread t th).Consistent := by
  have h := differs_withThread s ((s.withCell c ((s.cells c).taken t)).withLock c none)
    (fun _ => rfl) t th
  rw [hth] at h
  have hfree : ∀ u, c ∉ (s.standing u).marked := fun u hu => by
    have hrun := (hs.runner_iff c u).2 hu
    rw [hr] at hrun
    cases hrun
  have hstored : ∀ d, ((if d = c then (s.cells c).taken t else s.cells d)).stored = (s.cells d).stored := by
    intro d
    by_cases hd : d = c
    · rw [if_pos hd, hd]
      rfl
    · rw [if_neg hd]
  have hrunner : ∀ d r, (s.cells d).runner = some r →
      (if d = c then (s.cells c).taken t else s.cells d).runner = (s.cells d).runner := by
    intro d r hrun
    have hd : d ≠ c := fun hd => by
      rw [hd, hr] at hrun
      cases hrun
    rw [if_neg hd]
  -- no answer and no entry changes, so the work is in `Noted`: `t` comes to be noted for `c`
  constructor
  case toNoted =>
    constructor
    case runner_iff =>
      intro d u
      have hcells : (((s.withCell c ((s.cells c).taken t)).withLock c none).withThread t th).cells d =
          if d = c then (s.cells c).taken t else s.cells d := rfl
      rw [hcells]
      by_cases hu : u = t
      · subst hu
        rw [h.self, List.mem_cons, ← hs.runner_iff d u]
        by_cases hd : d = c <;> simp [hd, Cell.taken]
      · rw [h.other hu, ← hs.runner_iff d u]
        by_cases hd : d = c
        · simp [hd, Cell.taken, hr, Ne.symm hu]
        · rw [if_neg hd]
    case nodup =>
      intro u
      by_cases hu : u = t
      · subst hu
        rw [h.self]
        exact List.nodup_cons.2 ⟨hfree u, hs.nodup u⟩
      · rw [h.other hu]
        exact hs.nodup u
    case unstored =>
      intro u d hd
      refine (hstored d).trans ?_
      by_cases hu : u = t
      · subst hu
        rw [h.self] at hd
        rcases List.mem_cons.1 hd with rfl | hd
        · exact hnone
        · exact hs.unstored u d hd
      · rw [h.other hu] at hd
        exact hs.unstored u d hd
    case answered =>
      intro u d a hd
      rw [h.congr (·.ends) rfl] at hd
      exact (hstored d).trans (hs.answered u d a hd)
    case panicked =>
      intro u d m hd hmark
      refine (hstored d).trans ?_
      by_cases hu : u = t
      · subst hu
        rw [h.self] at hd
        cases he.symm.trans hd
      · rw [h.other hu] at hd hmark
        exact hs.panicked u d m hd hmark
  case toLocked =>
    exact hs.toLocked.give h (fun _ => rfl) hh rfl rfl fun u d r hud => hrunner d r (hs.behind u d r hud).1
  case toTabled =>
    refine hs.toTabled.of_differs h rfl rfl (fun _ => id) rfl (fun d hd => by rw [hn] at hd; cases hd) ?_
    exact fun w r d _ hrun => (hrunner d r hrun).trans hrun

/-- A thread that found another one computing, and no way back to itself in the table, leaves an entry
and falls asleep. -/
theorem Consistent.sleep (hs : s.Consistent) {r : τ} (hb : (s.standing t).behind = some (c, r))
    (hh : (s.standing t).holds = some c) (hn : (s.standing t).notifies = none)
    (ha : (s.standing t).awaits = none) (hw : ¬ WaitEdge.leadsTo s.waits r t = true)
    (hth : th.standing = { s.standing t with
      holds := none, behind := none, awaits := some c, sleeps := some c }) :
    (((s.withWaits (s.waits ++ [⟨t, r, c⟩])).withLock c none).withThread t th).Consistent := by
  obtain ⟨hr, hne⟩ := hs.behind t c r hb
  have h := differs_withThread s ((s.withWaits (s.waits ++ [⟨t, r, c⟩])).withLock c none)
    (fun _ => rfl) t th
  rw [hth] at h
  have hnotifies := h.congr (·.notifies) rfl
  have hother : ∀ {w q d}, ⟨w, q, d⟩ ∈ s.waits → w ≠ t := fun hmem hwt => by
    have hawaits := (hs.entry _ _ _ hmem).1
    rw [hwt, ha] at hawaits
    cases hawaits
  constructor
  case toNoted => exact hs.toNoted.of_differs h (fun _ => rfl) rfl rfl rfl
  case toLocked => exact hs.toLocked.give h (fun _ => rfl) hh rfl rfl fun _ _ _ _ => rfl
  case toTabled =>
    constructor
    case entry =>
      intro w q d hmem
      rcases List.mem_append.1 hmem with hmem | hmem
      · obtain ⟨hawaits, hqw, hrun | ⟨hnot, hhold⟩⟩ := hs.entry w q d hmem
        · rw [h.other (hother hmem)]
          exact ⟨hawaits, hqw, .inl hrun⟩
        · -- whoever only has to announce is not `t`, which is in a call
          have hq : q ≠ t := fun hq => by
            rw [hq, hn] at hnot
            cases hnot
          rw [h.other (hother hmem), h.other hq]
          exact ⟨hawaits, hqw, .inr ⟨hnot, hhold⟩⟩
      · obtain ⟨rfl, rfl, rfl⟩ : w = t ∧ q = r ∧ d = c := by simpa using hmem
        rw [h.self]
        exact ⟨rfl, hne, .inl hr⟩
    case single =>
      refine List.pairwise_append.2 ⟨hs.single, List.pairwise_singleton _ _, ?_⟩
      rintro ⟨w, q, d⟩ hmem f hf
      obtain rfl := List.mem_singleton.1 hf
      exact hother hmem
    case listed =>
      intro u d hu
      by_cases hut : u = t
      · subst hut
        rw [h.self] at hu
        cases hu
        exact .inl ⟨r, List.mem_append_right _ List.mem_cons_self⟩
      · rw [h.other hut] at hu
        refine (hs.listed u d hu).imp (fun ⟨q, hq⟩ => ⟨q, List.mem_append_left _ hq⟩) ?_
        exact fun ⟨v, hv⟩ => ⟨v, (hnotifies v).trans hv⟩
    case acyclic =>
      exact hs.acyclic.append fun hback => hw ((WaitEdge.leadsTo_iff_waits hs.single).2 hback)

/-- The closure of a cell ends with an answer, which is stored. -/
theorem Consistent.finish (hs : s.Consistent) (rest : List κ) {a : Answer α}
    (hm : (s.standing t).marked = c :: rest) (hi : (s.standing t).inside = c :: rest)
    (hth : th.standing = { s.standing t with
      inside := rest, ends := some (c, .answered (((s.cells c).store a).stored.getD a)) }) :
    ((s.withCell c ((s.cells c).store a)).withThread t th).Consistent := by
  have h := differs_withThread s (s.withCell c ((s.cells c).store a)) (fun _ => rfl) t th
  rw [hth] at h
  have hmarked := h.congr (·.marked) rfl
  have hnone : (s.cells c).stored = none := hs.unstored t c (by simp [hi])
  have hstore : ((s.cells c).store a).stored = some a := by simp [Cell.store, hnone]
  have hrun : (s.cells c).runner = some t := (hs.runner_iff c t).2 (by simp [hm])
  -- the store is seen only by those inside `c`, and `t` is the only one
  have hmine : ∀ u, c ∈ (s.standing u).marked → u = t := fun u hu => by
    rw [(hs.runner_iff c u).2 hu] at hrun
    exact Option.some.inj hrun
  have hnot : c ∉ rest := (List.nodup_cons.1 (hm ▸ hs.nodup t)).1
  have hcells : ∀ d, d ≠ c →
      ((s.withCell c ((s.cells c).store a)).withThread t th).cells d = s.cells d := fun d hd => if_neg hd
  have hrunner : ∀ d, (((s.withCell c ((s.cells c).store a)).withThread t th).cells d).runner =
      (s.cells d).runner := by
    intro d
    by_cases hd : d = c
    · simp [hd, Cell.store]
    · rw [hcells d hd]
  constructor
  case toNoted =>
    constructor
    case runner_iff =>
      intro d u
      rw [hrunner, hmarked]
      exact hs.runner_iff d u
    case nodup =>
      intro u
      rw [hmarked]
      exact hs.nodup u
    case unstored =>
      intro u d hd
      have hold : d ∈ (s.standing u).inside ∧ d ≠ c := by
        by_cases hu : u = t
        · subst hu
          rw [h.self] at hd
          exact ⟨hi ▸ List.mem_cons_of_mem c hd, fun hdc => hnot (hdc ▸ hd)⟩
        · rw [h.other hu] at hd
          exact ⟨hd, fun hdc => hu (hmine u (Thread.inside_subset_marked _ (hdc ▸ hd)))⟩
      rw [hcells d hold.2]
      exact hs.unstored u d hold.1
    case answered =>
      intro u d b hd
      by_cases hu : u = t
      · subst hu
        rw [h.self, hstore] at hd
        cases hd
        simpa using hstore
      · rw [h.other hu] at hd
        have hstored := hs.answered u d b hd
        have hdc : d ≠ c := fun hdc => by
          rw [hdc, hnone] at hstored
          cases hstored
        rw [hcells d hdc, hstored]
    case panicked =>
      intro u d m hd hmark
      by_cases hu : u = t
      · subst hu
        rw [h.self] at hd
        cases hd
      · rw [h.other hu] at hd hmark
        have hdc : d ≠ c := fun hdc => hu (hmine u (hdc ▸ hmark))
        rw [hcells d hdc]
        exact hs.panicked u d m hd hmark
  case toLocked => exact hs.toLocked.of_differs h (fun _ => rfl) rfl rfl hrunner
  case toTabled =>
    refine hs.toTabled.of_differs h rfl rfl (fun _ => id) rfl (fun _ _ => rfl) fun w r d _ hd => ?_
    rw [hrunner, hd]

/-- A thread takes the lock of the cell whose closure has ended and notes that nobody computes it. -/
theorem Consistent.land (hs : s.Consistent) (rest : List κ) (hl : s.locks c = none)
    (hm : (s.standing t).marked = c :: rest) (hh : (s.standing t).holds = none)
    (hn : (s.standing t).notifies = none)
    (hth : th.standing = { s.standing t with
      marked := rest, holds := some c, behind := none, notifies := some c }) :
    (((s.withCell c (s.cells c).released).withLock c (some t)).withThread t th).Consistent := by
  have h := differs_withThread s ((s.withCell c (s.cells c).released).withLock c (some t))
    (fun _ => rfl) t th
  rw [hth] at h
  have hrun : (s.cells c).runner = some t := (hs.runner_iff c t).2 (by simp [hm])
  have hnodup := List.nodup_cons.1 (hm ▸ hs.nodup t)
  have hfree : ∀ u, (s.standing u).holds ≠ some c := fun u hu => by
    rw [(hs.lock_iff c u).2 hu] at hl
    cases hl
  have hcells : ∀ d, d ≠ c → (((s.withCell c (s.cells c).released).withLock c (some t)).withThread t
      th).cells d = s.cells d := fun d hd => if_neg hd
  have hstored : ∀ d, ((((s.withCell c (s.cells c).released).withLock c (some t)).withThread t
      th).cells d).stored = (s.cells d).stored := by
    intro d
    by_cases hd : d = c
    · simp [hd, Cell.released]
    · rw [hcells d hd]
  have hnotifies : ∀ u d, (s.standing u).notifies = some d → u ≠ t := fun u d hu hut => by
    rw [hut, hn] at hu
    cases hu
  constructor
  case toNoted =>
    constructor
    case runner_iff =>
      intro d u
      by_cases hu : u = t
      · subst hu
        rw [h.self]
        by_cases hd : d = c
        · simp [hd, Cell.released, hnodup.1]
        · rw [hcells d hd, hs.runner_iff d u, hm, List.mem_cons, or_iff_right hd]
      · rw [h.other hu, ← hs.runner_iff d u]
        by_cases hd : d = c
        · simp [hd, Cell.released, hrun, Ne.symm hu]
        · rw [hcells d hd]
    case nodup =>
      intro u
      by_cases hu : u = t
      · subst hu
        rw [h.self]
        exact hnodup.2
      · rw [h.other hu]
        exact hs.nodup u
    case unstored =>
      intro u d hd
      rw [h.congr (·.inside) rfl] at hd
      exact (hstored d).trans (hs.unstored u d hd)
    case answered =>
      intro u d a hd
      rw [h.congr (·.ends) rfl] at hd
      exact (hstored d).trans (hs.answered u d a hd)
    case panicked =>
      intro u d m hd hmark
      rw [h.congr (·.ends) rfl] at hd
      refine (hstored d).trans (hs.panicked u d m hd ?_)
      by_cases hu : u = t
      · subst hu
        rw [h.self] at hmark
        exact hm ▸ List.mem_cons_of_mem c hmark
      · rwa [h.other hu] at hmark
  case toLocked =>
    refine hs.toLocked.take h hl (fun _ => rfl) hh rfl rfl fun u d r hud => ?_
    have hd : d ≠ c := fun hd => hfree u (hd ▸ Thread.holds_of_behind hud)
    rw [hcells d hd]
  case toTabled =>
    refine hs.toTabled.frame rfl (h.congr (·.awaits) rfl) (fun w r d _ hrunner => ?_) fun u d hu => ?_
    · rcases hrunner with hrunner | ⟨hnot, hhold⟩
      · by_cases hd : d = c
        · -- the runner that an entry for `c` names is `t`, which lands under the lock now
          subst hd
          obtain rfl : t = r := Option.some.inj (hrun.symm.trans hrunner)
          rw [h.self]
          exact .inr ⟨rfl, rfl⟩
        · rw [hcells d hd]
          exact .inl hrunner
      · rw [h.other (hnotifies r d hnot)]
        exact .inr ⟨hnot, hhold⟩
    · rw [h.congr (·.sleeps) rfl] at hu
      refine ⟨hu, fun v hv => ?_⟩
      rwa [h.other (hnotifies v d hv)]

/-- A landing removes the entries of those who wait for its cell, and gives the lock back. -/
theorem Consistent.clear (hs : s.Consistent) (hh : (s.standing t).holds = some c)
    (hn : (s.standing t).notifies = some c)
    (hth : th.standing = { s.standing t with holds := none, behind := none }) :
    (((s.withWaits (WaitEdge.withoutCell s.waits c)).withLock c none).withThread t th).Consistent := by
  have h := differs_withThread s ((s.withWaits (WaitEdge.withoutCell s.waits c)).withLock c none)
    (fun _ => rfl) t th
  rw [hth] at h
  have hmem : ∀ {e}, e ∈ WaitEdge.withoutCell s.waits c ↔ e ∈ s.waits ∧ e.cell ≠ c := by
    simp [WaitEdge.withoutCell]
  have hnotifies := h.congr (·.notifies) rfl
  have hsleeps := h.congr (·.sleeps) rfl
  constructor
  case toNoted => exact hs.toNoted.of_differs h (fun _ => rfl) rfl rfl rfl
  case toLocked => exact hs.toLocked.give h (fun _ => rfl) hh rfl rfl fun _ _ _ _ => rfl
  case toTabled =>
    constructor
    case entry =>
      intro w r d hwait
      obtain ⟨hold, hd⟩ := hmem.1 hwait
      obtain ⟨hawaits, hrw, hrun | ⟨hnot, hhold⟩⟩ := hs.entry w r d hold
      · exact ⟨(h.congr (·.awaits) rfl w).trans hawaits, hrw, .inl hrun⟩
      · have hr : r ≠ t := fun hr => by
          rw [hr, hn] at hnot
          exact hd (Option.some.inj hnot).symm
        rw [h.congr (·.awaits) rfl w, h.other hr]
        exact ⟨hawaits, hrw, .inr ⟨hnot, hhold⟩⟩
    case single => exact hs.single.filter _
    case listed =>
      intro u d hu
      rw [hsleeps u] at hu
      -- who sleeps for `c` loses its entry here, and `t` is still to announce `c`
      by_cases hd : d = c
      · exact .inr ⟨t, hd.symm ▸ (hnotifies t).trans hn⟩
      · refine (hs.listed u d hu).imp (fun ⟨r, hr⟩ => ⟨r, hmem.2 ⟨hr, hd⟩⟩) ?_
        exact fun ⟨v, hv⟩ => ⟨v, (hnotifies v).trans hv⟩
    case acyclic => exact hs.acyclic.mono List.filter_sublist.subset

omit [DecidableEq τ] in
/-- Waking the sleepers of a cell changes nothing but that they sleep. -/
theorem announce_congr {γ : Type} (f : Standing τ κ α → γ) (hf : ∀ y, f { y with sleeps := none } = f y)
    (c : κ) (u : τ) : f ((s.announce c).standing u) = f (s.standing u) := by
  rw [standing_announce]
  split
  · exact hf _
  · rfl

omit [DecidableEq τ] in
theorem sleeps_announce {u : τ} {d : κ} (h : ((s.announce c).standing u).sleeps = some d) :
    (s.standing u).sleeps = some d ∧ d ≠ c := by
  rw [standing_announce] at h
  split at h
  · cases h
  next hne => exact ⟨h, fun hd => hne (hd ▸ h)⟩

omit [DecidableEq τ] in
theorem Consistent.announce (hs : s.Consistent) (c : κ) : (s.announce c).Consistent := by
  have hnotifies := announce_congr (s := s) (·.notifies) (fun _ => rfl) c
  have hholds := announce_congr (s := s) (·.holds) (fun _ => rfl) c
  constructor
  case toNoted =>
    refine hs.toNoted.frame (fun _ => rfl) (announce_congr (·.marked) (fun _ => rfl) c)
      (announce_congr (·.inside) (fun _ => rfl) c) fun u y hu => ?_
    rwa [announce_congr (·.ends) (fun _ => rfl) c u] at hu
  case toLocked =>
    exact hs.toLocked.frame (fun _ => rfl) hholds (announce_congr (·.behind) (fun _ => rfl) c) fun _ => rfl
  case toTabled =>
    refine hs.toTabled.frame rfl (announce_congr (·.awaits) (fun _ => rfl) c) (fun w r d _ hrun => ?_)
      fun u d hu => ⟨(sleeps_announce hu).1, fun v hv => (hnotifies v).trans hv⟩
    rw [hnotifies r, hholds r]
    exact hrun

/-- A landing wakes the sleepers of its cell and is over. -/
theorem Consistent.leave (hs : s.Consistent) (hn : (s.standing t).notifies = some c)
    (hh : (s.standing t).holds = none) (hsl : (s.standing t).sleeps = none)
    (hth : th.standing = { s.standing t with notifies := none, ends := none }) :
    ((s.announce c).withThread t th).Consistent := by
  have hself : (s.announce c).standing t = s.standing t := by
    rw [standing_announce, hsl, if_neg nofun]
  have hs' := hs.announce c
  have h := differs_withThread (s.announce c) (s.announce c) (fun _ => rfl) t th
  rw [hth, ← hself] at h
  constructor
  case toNoted =>
    refine hs'.toNoted.frame (fun _ => rfl) (h.congr (·.marked) rfl) (h.congr (·.inside) rfl) ?_
    intro u y hu
    by_cases hut : u = t
    · subst hut
      rw [h.self] at hu
      cases hu
    · rwa [h.other hut] at hu
  case toLocked => exact hs'.toLocked.of_differs h (fun _ => rfl) rfl rfl fun _ => rfl
  case toTabled =>
    refine hs'.toTabled.frame rfl (h.congr (·.awaits) rfl) (fun w r d _ hrun => ?_) fun u d hu => ?_
    -- an entry about a landing names a thread that holds a lock, and `t` holds none
    · refine hrun.imp_right fun ⟨hnot, hhold⟩ => ?_
      have hr : r ≠ t := fun hr => by
        rw [hr, hself, hh] at hhold
        cases hhold
      rw [h.other hr]
      exact ⟨hnot, hhold⟩
    · rw [h.congr (·.sleeps) rfl] at hu
      refine ⟨hu, fun v hv => ?_⟩
      -- nobody sleeps for `c` any more, and no other cell was to be announced by `t`
      have hvt : v ≠ t := fun hvt => by
        rw [hvt, hself, hn] at hv
        exact (sleeps_announce hu).2 (Option.some.inj hv).symm
      rwa [h.other hvt]

/-! ## Reachable states -/

theorem Consistent.move {bodies : β → Computation κ β α} {s' : State τ κ β α}
    {e : Option (Event τ κ β α)} (hs : s.Consistent) (h : Move bodies s t s' e) : s'.Consistent := by
  have hst : s.standing t = (s.threads t).standing := rfl
  cases h with
  | finishAlone ht | panicAlone ht | pause ht | peek ht | attempt ht | hit ht | miss ht =>
    exact hs.quiet (by simp [hst, ht, Thread.standing])
  | enter ht hl | rise ht hl =>
    refine hs.acquire hl ?_ ?_ ?_ <;> simp [hst, ht, Thread.standing]
  | found ht | reentry ht | refuse ht =>
    refine hs.release ?_ ?_ ?_ <;> simp [hst, ht, Thread.standing]
  | behind ht hstored hr hne => exact hs.find hr hne (by simp [hst, ht, Thread.standing])
  | start ht hnone hr =>
    refine hs.start hr hnone ?_ ?_ ?_ ?_ <;> simp [hst, ht, Thread.standing, Thread.cellsOf]
  | sleep ht hw => refine hs.sleep ?_ ?_ ?_ ?_ hw ?_ <;> simp [hst, ht, Thread.standing]
  | wake ht => exact hs.wake (by simp [hst, ht, Thread.standing])
  | unlist ht => exact hs.unlist (by simp [hst, ht, Thread.standing]) (by simp [hst, ht, Thread.standing])
  | @finish p stack a ht =>
    refine hs.finish (Thread.cellsOf stack) ?_ ?_ ?_ <;> simp [hst, ht, Thread.standing, Thread.cellsOf]
  | @panic p stack m ht =>
    refine hs.panic (c := p.call.cell) (m := m) (Thread.cellsOf stack) ?_ ?_ <;>
      simp [hst, ht, Thread.standing, Thread.cellsOf]
  | @land p stack o ht hl =>
    refine hs.land (Thread.cellsOf stack) hl ?_ ?_ ?_ ?_ <;>
      simp [hst, ht, Thread.standing, Thread.cellsOf]
  | clear ht => refine hs.clear ?_ ?_ ?_ <;> simp [hst, ht, Thread.standing]
  | leave ht => refine hs.leave ?_ ?_ ?_ ?_ <;> simp [hst, ht, Thread.standing]

omit [DecidableEq τ] [DecidableEq κ] in
theorem consistent_initial (programs : τ → Computation κ β α) : (initial programs).Consistent := by
  have hst : ∀ t, (initial programs).standing t = ⟨[], [], none, none, none, none, none, none⟩ := fun _ => rfl
  have hcells : ∀ c, (initial programs).cells c = {} := fun _ => rfl
  have hlocks : ∀ c, (initial programs).locks c = none := fun _ => rfl
  have hwaits : (initial programs).waits = [] := rfl
  constructor
  case toNoted => constructor <;> simp [hst, hcells]
  case toLocked => constructor <;> simp [hst, hlocks]
  case toTabled =>
    constructor
    case acyclic =>
      rw [hwaits]
      intro t h
      obtain ⟨u, ⟨c, hc⟩, -⟩ := Relation.TransGen.head'_iff.1 h
      cases hc
    all_goals simp [hst, hwaits, WaitEdge.Single]

/-- What every move keeps in consistent states is kept by every run from one of them. -/
theorem Runs.maintains {bodies : β → Computation κ β α} {P : List (Event τ κ β α) → State τ κ β α → Prop}
    {es : List (Event τ κ β α)} {s' : State τ κ β α} (h : Runs bodies s es s') (hs : s.Consistent)
    (start : P [] s)
    (move : ∀ {es s t s' e}, s.Consistent → P es s → Move bodies s t s' e → P (es ++ e.toList) s') :
    s'.Consistent ∧ P es s' :=
  h.preserves (P := fun es s => s.Consistent ∧ P es s) ⟨hs, start⟩
    fun ⟨hs, hP⟩ hm => ⟨hs.move hm, move hs hP hm⟩

theorem Runs.consistent_of {bodies : β → Computation κ β α} {es : List (Event τ κ β α)}
    {s' : State τ κ β α} (h : Runs bodies s es s') (hs : s.Consistent) : s'.Consistent :=
  (h.maintains (P := fun _ _ => True) hs trivial fun _ _ _ => trivial).1

theorem Runs.consistent {bodies : β → Computation κ β α} {programs : τ → Computation κ β α}
    {es : List (Event τ κ β α)} (h : Runs bodies (initial programs) es s) : s.Consistent :=
  h.consistent_of (consistent_initial programs)

theorem Reachable.consistent {bodies : β → Computation κ β α} (h : Reachable bodies s) : s.Consistent :=
  let ⟨_, _, hruns⟩ := h
  hruns.consistent

end TernBackend.State
