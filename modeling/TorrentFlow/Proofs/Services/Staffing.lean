import TorrentFlow.Proofs.Services.Soundness

/-!
Every reader has a subscription of its own for what happens to its torrent, and a window that is its
torrent's. Nobody takes them away from it, and whoever comes later gets others.
-/

namespace TorrentFlow.Services

open Delivery (Note)
open Pipeline (readRequest)

/-- The subscription is there, for what happens to the pieces of a torrent. -/
def Subscribed (p : Pipeline Simulated) (sub : Nat) (h : Handle) : Prop :=
  ∃ s, p.hub.subscriptions.get? sub = some s ∧ s.filter = (readRequest h).filter ∧
    s.mask = (readRequest h).requiredMask

structure Staffed (p : Pipeline Simulated) : Prop where
  sorted : p.readers.Sorted
  bound : ∀ id r, p.readers.get? id = some r → id < p.nextScope
  ahead : ∀ id r, p.readers.get? id = some r → r.ahead = max p.settings.readWindow 1
  subscribed : ∀ id r, p.readers.get? id = some r → Subscribed p r.subscription r.handle
  apart : ∀ id j r r', p.readers.get? id = some r → p.readers.get? j = some r' →
    r.subscription = r'.subscription → id = j
  janitor : ∀ sub, p.janitor = some sub → sub < p.hub.nextId ∧
    ∀ id r, p.readers.get? id = some r → r.subscription ≠ sub
  window : ∀ id r, p.readers.get? id = some r →
    (p.windows.windows.get? r.window).map (·.handle) = some r.handle
  current : ∀ h k, p.windows.current.get? h = some k →
    (p.windows.windows.get? k).map (·.handle) = some h
  next : ∀ k, p.windows.windows.get? k ≠ none → k < p.windows.next

/-! ### Subscriptions that are not dropped stay -/

lemma subscribed_step {p q : Pipeline Simulated} {note : Note} (h : Delivery.Inv p)
    (hstep : Delivery.Step p note q) {sub : Nat} {g : Handle} (hs : Subscribed p sub g)
    (hleft : note ≠ .left sub) : Subscribed q sub g := by
  obtain ⟨s, hget, hfilter, hmask⟩ := hs
  have hev := Delivery.step_evolves h hstep
  obtain ⟨s', hget'⟩ := hev.kept sub s hget hleft
  have hterms := (hev.grown sub s s' hget hget').terms
  exact ⟨s', hget', (congrArg (fun t => t.1) hterms).trans hfilter,
    (congrArg (fun t => t.2.1) hterms).trans hmask⟩

lemma subscribed_run {p q : Pipeline Simulated} {notes : List Note} (h : Delivery.Inv p)
    (hrun : Delivery.Run p notes q) {sub : Nat} {g : Handle} (hs : Subscribed p sub g)
    (hleft : Note.left sub ∉ notes) : Subscribed q sub g := by
  induction hrun with
  | nil => exact hs
  | snoc hrun hstep ih =>
    simp only [List.mem_append, List.mem_singleton, not_or] at hleft
    exact subscribed_step (Delivery.run_inv h hrun) hstep (ih hleft.1) (Ne.symm hleft.2)
  | aside _ _ _ _ _ _ _ _ ih => exact ih hleft

lemma nextId_run {p q : Pipeline Simulated} {notes : List Note} (h : Delivery.Inv p)
    (hrun : Delivery.Run p notes q) : p.hub.nextId ≤ q.hub.nextId := by
  induction hrun with
  | nil => exact Nat.le_refl _
  | snoc hrun hstep ih =>
    exact Nat.le_trans ih (Delivery.step_evolves (Delivery.run_inv h hrun) hstep).nextId
  | aside _ _ _ _ _ _ _ _ ih => exact ih

/-! ### Steps in which no reader is made -/

/-- From `p` to `q` delivery took these steps; readers and windows may have changed, but none is new
and no reader lost its subscription. -/
structure Continues (notes : List Note) (p q : Pipeline Simulated) : Prop where
  run : Delivery.Run p notes q
  left : ∀ id r, q.readers.get? id = some r → Note.left r.subscription ∉ notes
  readers : ∀ id r', q.readers.get? id = some r' → ∃ r, p.readers.get? id = some r ∧ r.Kin r'
  sorted : p.readers.Sorted → q.readers.Sorted
  windows : ∀ k, (q.windows.windows.get? k).map (·.handle) =
    (p.windows.windows.get? k).map (·.handle)
  current : ∀ h k, q.windows.current.get? h = some k → p.windows.current.get? h = some k
  next : q.windows.next = p.windows.next
  nextScope : p.nextScope ≤ q.nextScope
  janitor : ∀ sub, q.janitor = some sub → p.janitor = some sub
  settings : q.settings = p.settings

namespace Continues

lemma trans {notes notes' : List Note} {p q r : Pipeline Simulated} (h : Continues notes p q)
    (h' : Continues notes' q r) : Continues (notes ++ notes') p r where
  run := h.run.trans h'.run
  left id r'' hr'' := by
    obtain ⟨r', hr', hk⟩ := h'.readers id r'' hr''
    have hl := h.left id r' hr'
    rw [← hk.subscription] at hl
    simp [hl, h'.left id r'' hr'']
  readers id r'' hr'' := by
    obtain ⟨r', hr', hk'⟩ := h'.readers id r'' hr''
    obtain ⟨r, hr, hk⟩ := h.readers id r' hr'
    exact ⟨r, hr, hk.trans hk'⟩
  sorted hs := h'.sorted (h.sorted hs)
  windows k := (h'.windows k).trans (h.windows k)
  current g k hk := h.current g k (h'.current g k hk)
  next := h'.next.trans h.next
  nextScope := Nat.le_trans h.nextScope h'.nextScope
  janitor sub hj := h.janitor sub (h'.janitor sub hj)
  settings := h'.settings.trans h.settings

lemma of_step {p q : Pipeline Simulated} {note : Note} (hstep : Delivery.Step p note q)
    (hleft : ∀ id r, p.readers.get? id = some r → note ≠ .left r.subscription) :
    Continues [note] p q := by
  have hb := Delivery.step_beside hstep
  refine ⟨.one hstep, fun id r hr => ?_, fun id r hr => ⟨r, hb.readers ▸ hr, .refl r⟩, ?_, ?_, ?_,
    by rw [hb.windows], Nat.le_of_eq hb.nextScope.symm, ?_, hb.settings⟩
  · rw [hb.readers] at hr
    simp [Ne.symm (hleft id r hr)]
  · rw [hb.readers]
    exact fun h => h
  · exact fun k => by rw [hb.windows]
  · exact fun g k hk => hb.windows ▸ hk
  · exact fun sub hj => hb.janitor ▸ hj

lemma aside (p : Pipeline Simulated) (waiters : Table Nat Waiter) {nextScope : Nat}
    (hn : p.nextScope ≤ nextScope) {janitor : Option Nat}
    (hj : janitor = none ∨ janitor = p.janitor) (now : Nat) (notices : List Notice) :
    Continues [] p { p with waiters, nextScope, janitor, now, notices } where
  run := (Delivery.Run.nil p).aside p.windows p.readers waiters nextScope janitor now notices
  left _ _ _ := List.not_mem_nil
  readers id r hr := ⟨r, hr, .refl r⟩
  sorted h := h
  windows _ := rfl
  current _ _ h := h
  next := rfl
  nextScope := hn
  janitor sub hs := by
    rcases hj with rfl | rfl
    · cases hs
    · exact hs
  settings := rfl

lemma forgetWindow (h : Handle) (p : Pipeline Simulated) :
    Continues [] p (p.forgetWindow h).2 where
  run := (Delivery.Run.nil p).aside _ _ _ _ _ _ _
  left _ _ _ := List.not_mem_nil
  readers id r hr := ⟨r, hr, .refl r⟩
  sorted h := h
  windows _ := rfl
  current g k hk := by
    simp only [Pipeline.forgetWindow, Windows.forget, Table.get?_erase] at hk
    split_ifs at hk
    exact hk
  next := rfl
  nextScope := Nat.le_refl _
  janitor _ h := h
  settings := rfl

lemma strike (p : Pipeline Simulated) (id : Nat) :
    Continues [] p { p with readers := p.readers.erase id } where
  run := (Delivery.Run.nil p).aside _ _ _ _ _ _ _
  left _ _ _ := List.not_mem_nil
  readers j r hr := by
    rw [Table.get?_erase] at hr
    split_ifs at hr
    exact ⟨r, hr, .refl r⟩
  sorted h := h.erase id
  windows _ := rfl
  current _ _ h := h
  next := rfl
  nextScope := Nat.le_refl _
  janitor _ h := h
  settings := rfl

end Continues

/-- Whoever is attended to goes on with everybody else. -/
lemma Attended.continues {id sub : Nat} {p q : Pipeline Simulated} (h : Attended id sub p q)
    (hid : ∃ r, p.readers.get? id = some r) :
    ∃ notes, Continues notes p q ∧ ∀ note ∈ notes, Own sub note := by
  obtain ⟨notes, hrun, hown⟩ := h.run
  refine ⟨notes, ⟨hrun, fun _ _ _ hmem => hown _ hmem, fun j r' hr' => ?_, h.sorted, h.windows,
    h.current, h.next, Nat.le_of_eq h.nextScope.symm, fun sub hj => h.janitor ▸ hj,
    h.settings⟩, hown⟩
  by_cases hj : j = id
  · obtain ⟨r, hr⟩ := hid
    obtain ⟨r'', hr'', hk⟩ := h.itself r hr
    rw [hj, hr'', Option.some.injEq] at hr'
    exact ⟨r, hj ▸ hr, hr' ▸ hk⟩
  · exact ⟨r', h.others j hj ▸ hr', .refl r'⟩

theorem Staffed.continues {notes : List Note} {p q : Pipeline Simulated} (h : Staffed p)
    (hinv : Delivery.Inv p) (hc : Continues notes p q) : Staffed q where
  sorted := hc.sorted h.sorted
  bound id r' hr' := by
    obtain ⟨r, hr, -⟩ := hc.readers id r' hr'
    exact Nat.lt_of_lt_of_le (h.bound id r hr) hc.nextScope
  ahead id r' hr' := by
    obtain ⟨r, hr, hk⟩ := hc.readers id r' hr'
    rw [hk.ahead, hc.settings]
    exact h.ahead id r hr
  subscribed id r' hr' := by
    obtain ⟨r, hr, hk⟩ := hc.readers id r' hr'
    have hleft := hc.left id r' hr'
    rw [hk.subscription] at hleft ⊢
    rw [hk.handle]
    exact subscribed_run hinv hc.run (h.subscribed id r hr) hleft
  apart id j r₁ r₂ h₁ h₂ heq := by
    obtain ⟨r, hr, hk⟩ := hc.readers id r₁ h₁
    obtain ⟨r', hr', hk'⟩ := hc.readers j r₂ h₂
    rw [hk.subscription, hk'.subscription] at heq
    exact h.apart id j r r' hr hr' heq
  janitor sub hj := by
    obtain ⟨hlt, hne⟩ := h.janitor sub (hc.janitor sub hj)
    refine ⟨Nat.lt_of_lt_of_le hlt (nextId_run hinv hc.run), fun id r' hr' => ?_⟩
    obtain ⟨r, hr, hk⟩ := hc.readers id r' hr'
    rw [hk.subscription]
    exact hne id r hr
  window id r' hr' := by
    obtain ⟨r, hr, hk⟩ := hc.readers id r' hr'
    rw [hk.window, hk.handle, hc.windows]
    exact h.window id r hr
  current g k hk := by
    rw [hc.windows]
    exact h.current g k (hc.current g k hk)
  next k hk := by
    rw [hc.next]
    refine h.next k fun hnone => hk ?_
    have hw := hc.windows k
    rw [hnone] at hw
    exact Option.map_eq_none_iff.mp hw

end TorrentFlow.Services
