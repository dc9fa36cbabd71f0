import Frogop.Lib.Run
import Mathlib.Logic.Function.Basic
import Mathlib.Order.Nat

/-!
# A cache with a time to live

A cache in front of a source that may fail to answer. An entry serves requests for its key for
`ttl` units of time after it was stored; later requests ask the source again. Over a run of
requests at non-decreasing times, what is served was answered by the source for the same key within
the last `ttl`, and the source is asked exactly when it gave no such answer.
-/

namespace TtlCache

variable {K V : Type*}

/-- For each key, when its entry was stored, and the entry. -/
abbrev Cache (K V : Type*) := K → Option (ℕ × V)

structure Request (K V : Type*) where
  time : ℕ
  key : K
  /-- What the source answers if it is asked; `none` when it fails. -/
  answer : Option V

/-- The entry that serves a request for `k` at time `now`. -/
def hit (ttl : ℕ) (c : Cache K V) (k : K) (now : ℕ) : Option V :=
  (c k).bind fun e => if now - e.1 ≤ ttl then some e.2 else none

/-- A request with its reply, and whether the source was asked. -/
structure Served (K V : Type*) extends Request K V where
  asked : Bool
  reply : Option V

/-- The time of the last request, and the cache. -/
structure State (K V : Type*) where
  now : ℕ
  cache : Cache K V

inductive Step [DecidableEq K] (ttl : ℕ) : State K V → Served K V → State K V → Prop
  | cached {s : State K V} {r : Request K V} {v : V} (htime : s.now ≤ r.time)
      (hhit : hit ttl s.cache r.key r.time = some v) :
      Step ttl s ⟨r, false, some v⟩ ⟨r.time, s.cache⟩
  | failed {s : State K V} {r : Request K V} (htime : s.now ≤ r.time)
      (hmiss : hit ttl s.cache r.key r.time = none) (hanswer : r.answer = none) :
      Step ttl s ⟨r, true, none⟩ ⟨r.time, s.cache⟩
  | stored {s : State K V} {r : Request K V} {v : V} (htime : s.now ≤ r.time)
      (hmiss : hit ttl s.cache r.key r.time = none) (hanswer : r.answer = some v) :
      Step ttl s ⟨r, true, some v⟩ ⟨r.time, Function.update s.cache r.key (some (r.time, v))⟩

/-- The source was asked for `k` at time `b`, and answered `v`. -/
def Gave (h : Lts.History (State K V) (Served K V)) (k : K) (b : ℕ) (v : V) : Prop :=
  ∃ p ∈ h, p.1.asked = true ∧ p.1.key = k ∧ p.1.time = b ∧ p.1.answer = some v

variable {ttl now b : ℕ} {c : Cache K V} {s s₀ t : State K V} {k : K} {v : V} {d : Served K V}
  {h : Lts.History (State K V) (Served K V)} {p : Served K V × State K V}

lemma hit_eq_some : hit ttl c k now = some v ↔ ∃ b, c k = some (b, v) ∧ now - b ≤ ttl := by
  rw [hit]
  cases hk : c k with
  | none => simp
  | some e =>
    obtain ⟨b, v'⟩ := e
    simp only [Option.bind_some, Option.ite_none_right_eq_some, Option.some.injEq, Prod.mk.injEq]
    constructor
    · rintro ⟨hle, rfl⟩
      exact ⟨b, ⟨rfl, rfl⟩, hle⟩
    · rintro ⟨b', ⟨rfl, rfl⟩, hle⟩
      exact ⟨hle, rfl⟩

lemma Gave.cons (hgave : Gave h k b v) : Gave (p :: h) k b v := by
  obtain ⟨q, hq, hrest⟩ := hgave
  exact ⟨q, List.mem_cons_of_mem _ hq, hrest⟩

/-- The answers of a longer history are those before, and perhaps one to the last request. -/
lemma gave_cons : Gave (p :: h) k b v ↔
    (p.1.asked = true ∧ p.1.key = k ∧ p.1.time = b ∧ p.1.answer = some v) ∨ Gave h k b v := by
  simp only [Gave, List.mem_cons, exists_eq_or_imp]

section

variable [DecidableEq K]

/-! ### The invariant -/

/-- The entry of a key is the last answer the source gave for it. -/
structure Inv (h : Lts.History (State K V) (Served K V)) (s : State K V) : Prop where
  stored : ∀ k b v, s.cache k = some (b, v) → Gave h k b v ∧ b ≤ s.now
  latest : ∀ k b v, Gave h k b v → ∃ b' v', s.cache k = some (b', v') ∧ b ≤ b'

omit [DecidableEq K] in
/-- A request that leaves the cache alone and was given no answer. -/
lemma Inv.idle (hinv : Inv h s) (htime : s.now ≤ t.now) (hcache : t.cache = s.cache)
    (hnone : ¬ (d.asked = true ∧ ∃ v, d.answer = some v)) : Inv ((d, t) :: h) t := by
  refine ⟨fun k b v hstored => ?_, fun k b v hgave => ?_⟩
  · rw [hcache] at hstored
    obtain ⟨hgave, hle⟩ := hinv.stored k b v hstored
    exact ⟨hgave.cons, le_trans hle htime⟩
  · rw [hcache]
    rcases gave_cons.mp hgave with ⟨hasked, -, -, hanswer⟩ | hgave
    · exact absurd ⟨hasked, v, hanswer⟩ hnone
    · exact hinv.latest k b v hgave

/-- One request keeps the invariant. -/
lemma Inv.step (hinv : Inv h s) (hstep : Step ttl s d t) : Inv ((d, t) :: h) t := by
  cases hstep with
  | cached htime hhit => exact hinv.idle htime rfl fun hasked => Bool.false_ne_true hasked.1
  | failed htime hmiss hanswer =>
    refine hinv.idle htime rfl ?_
    rintro ⟨-, v, hv⟩
    rw [hanswer] at hv
    cases hv
  | @stored r w htime hmiss hanswer =>
    refine ⟨fun k b v hstored => ?_, fun k b v hgave => ?_⟩
    · by_cases hk : k = r.key
      · subst hk
        obtain ⟨rfl, rfl⟩ : r.time = b ∧ w = v := by simpa using hstored
        exact ⟨gave_cons.mpr (.inl ⟨rfl, rfl, rfl, hanswer⟩), le_rfl⟩
      · have hold : s.cache k = some (b, v) := (Function.update_of_ne hk ..).symm.trans hstored
        obtain ⟨hgave, hle⟩ := hinv.stored k b v hold
        exact ⟨hgave.cons, le_trans hle htime⟩
    · by_cases hk : k = r.key
      · subst hk
        refine ⟨r.time, w, Function.update_self .., ?_⟩
        rcases gave_cons.mp hgave with ⟨-, -, hb, -⟩ | hgave
        · exact le_of_eq hb.symm
        · -- what the cache held is older than this request
          obtain ⟨b', v', hcache, hle⟩ := hinv.latest _ b v hgave
          exact le_trans hle (le_trans (hinv.stored _ b' v' hcache).2 htime)
      · rcases gave_cons.mp hgave with ⟨-, hkey, -⟩ | hgave
        · exact absurd hkey.symm hk
        · obtain ⟨b', v', hcache, hle⟩ := hinv.latest k b v hgave
          exact ⟨b', v', (Function.update_of_ne hk ..).trans hcache, hle⟩

lemma inv_of_run (hempty : ∀ k, s₀.cache k = none) (hrun : Lts.Run (Step ttl) s₀ h s) :
    Inv h s := by
  refine hrun.induct (I := Inv) ⟨fun k b v hstored => ?_, fun k b v hgave => ?_⟩
    fun h t d u _ hinv hstep => hinv.step hstep
  · rw [hempty] at hstored
    cases hstored
  · obtain ⟨p, hp, -⟩ := hgave
    cases hp

/-! ### What is served -/

omit [DecidableEq K] in
/-- An entry serves a request exactly when the source answered within the last `ttl`. -/
lemma Inv.hit_iff (hinv : Inv h s) :
    (∃ v, hit ttl s.cache k now = some v) ↔ ∃ b v, Gave h k b v ∧ now ≤ b + ttl := by
  constructor
  · rintro ⟨v, hhit⟩
    obtain ⟨b, hcache, hle⟩ := hit_eq_some.mp hhit
    exact ⟨b, v, (hinv.stored k b v hcache).1, by omega⟩
  · rintro ⟨b, v, hgave, hle⟩
    obtain ⟨b', v', hcache, hle'⟩ := hinv.latest k b v hgave
    exact ⟨v', hit_eq_some.mpr ⟨b', hcache, by omega⟩⟩

/-- What a request is served was answered for its key within the last `ttl`. -/
lemma Inv.served (hinv : Inv h s) (hstep : Step ttl s d t) (hreply : d.reply = some v) :
    ∃ b, b ≤ d.time ∧ d.time ≤ b + ttl ∧ Gave ((d, t) :: h) d.key b v := by
  cases hstep with
  | @cached r w htime hhit =>
    cases hreply
    obtain ⟨b, hcache, hle⟩ := hit_eq_some.mp hhit
    obtain ⟨hgave, hb⟩ := hinv.stored _ b v hcache
    have hfresh : r.time ≤ b + ttl := by omega
    exact ⟨b, le_trans hb htime, hfresh, hgave.cons⟩
  | failed => cases hreply
  | @stored r w htime hmiss hanswer =>
    cases hreply
    exact ⟨r.time, le_rfl, Nat.le_add_right _ _, gave_cons.mpr (.inl ⟨rfl, rfl, rfl, hanswer⟩)⟩

/-- The source is asked exactly when it gave no answer for the key within the last `ttl`. -/
lemma Inv.asked_iff (hinv : Inv h s) (hstep : Step ttl s d t) :
    d.asked = true ↔ ¬ ∃ b v, Gave h d.key b v ∧ d.time ≤ b + ttl := by
  rw [← hinv.hit_iff]
  cases hstep with
  | cached htime hhit => simp [hhit]
  | failed htime hmiss hanswer => simp [hmiss]
  | stored htime hmiss hanswer => simp [hmiss]

end

end TtlCache
