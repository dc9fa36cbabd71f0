import Frogop.Pool.BtcQuote.Lifecycle

/-!
# Reserving an option

`executeReservation` and `cancelReservation` trust the reservation table. The invariant of all
runs, `TwoPhase`, links the table to the options: a reserved option has exactly the one pending
reservation that reserved it, and a reservation is closed at most once.

A reservation exists when the slot of its option id is not zero, so those of option `0` are stored
and never found.
-/

namespace Frogop.BtcQuote

open Outcome World

/-! ### What a history says of reservations -/

/-- The reservation made by the last successful `reserveOption` of an option. -/
def reservedBy : Lts.History State (Label Call) → ℕ → Option ℕ
  | [], _ => none
  | (.call _ (.reserveOption j) [.u256 n], _) :: h, i => if j = i then some n else reservedBy h i
  | _ :: h, i => reservedBy h i

/-- A successful `executeReservation` or `cancelReservation` of a reservation. -/
def Closes (n : ℕ) : Label Call → Bool
  | .call _ (.executeReservation m) _ => m = n
  | .call _ (.cancelReservation m) _ => m = n
  | _ => false

/-- How often a reservation was executed or cancelled. -/
def closings (n : ℕ) (h : Lts.History State (Label Call)) : ℕ := h.countP fun p => Closes n p.1

/-! ### The invariant -/

/-- The reservation `n` holds the option `i`. -/
structure Holds (env : Env) (h : Lts.History State (Label Call)) (w : State) (n i : ℕ) : Prop where
  made : reservedBy h i = some n
  reserved : (w.option i).status = .RESERVED
  stored : (w.own.reservations.get n).optionId = i
  pending : (w.own.reservations.get n).status = .PENDING
  issued : n < w.own.nextReservationId
  block : (w.own.reservations.get n).expiryBlock < (w.option i).expiryBlock
  amount : (w.own.reservations.get n).btcAmount < u64Size
  unclosed : closings n h = 0
  buyer_ne_pool : (w.own.reservations.get n).buyer ≠ env.contractAddress
  buyer_ne_zero : (w.own.reservations.get n).buyer ≠ Address.zero

structure TwoPhase (env : Env) (h : Lts.History State (Label Call)) (w : State) : Prop where
  table : TableInv w.pool
  held : ∀ i < w.pool.nextId, (w.option i).status = .RESERVED → ∃ n, Holds env h w n i
  live : ∀ n, Live w n → (w.own.reservations.get n).optionId < w.pool.nextId ∧
    Holds env h w n (w.own.reservations.get n).optionId
  unissued : ∀ n, w.own.nextReservationId ≤ n →
    ¬ w.own.reservations.existsAt n ∧ closings n h = 0
  once : ∀ n, closings n h ≤ 1

section

variable {env : Env} {others : Ledger → Ledger → Prop} {tx : Tx} {c : Call} {w₀ w w' : State}
  {r : Response} {i j n m : ℕ} {h : Lts.History State (Label Call)} {l : Label Call}

lemma TwoPhase.reserves (hinv : TwoPhase env h w) : Reserves w := by
  intro n hn
  obtain ⟨hlt, hholds⟩ := hinv.live n hn
  exact ⟨hlt, hholds.reserved⟩

/-- An option is held by one reservation. -/
lemma Holds.unique (hn : Holds env h w n i) (hm : Holds env h w m i) : n = m :=
  Option.some.inj (hn.made.symm.trans hm.made)

/-- A reservation holds its option as long as neither is touched. -/
lemma Holds.keep {h' : Lts.History State (Label Call)} (hn : Holds env h w n i)
    (hmade : reservedBy h' i = reservedBy h i) (hoption : w'.option i = w.option i)
    (hget : w'.own.reservations.get n = w.own.reservations.get n)
    (hnext : w.own.nextReservationId ≤ w'.own.nextReservationId)
    (hclosings : closings n h' = closings n h) : Holds env h' w' n i := by
  constructor
  · rw [hmade]
    exact hn.made
  · rw [hoption]
    exact hn.reserved
  · rw [hget]
    exact hn.stored
  · rw [hget]
    exact hn.pending
  · exact hn.issued.trans_le hnext
  · rw [hget, hoption]
    exact hn.block
  · rw [hget]
    exact hn.amount
  · rw [hclosings]
    exact hn.unclosed
  · rw [hget]
    exact hn.buyer_ne_pool
  · rw [hget]
    exact hn.buyer_ne_zero

/-! ### Steps that leave the reservations alone -/

/-- A step that moves no option into or out of `RESERVED` and leaves the reservations alone. -/
structure Quiet (l : Label Call) (w w' : State) : Prop where
  own : w'.own = w.own
  nextId : w.pool.nextId ≤ w'.pool.nextId
  same : ∀ i < w.pool.nextId,
    (w.option i).status = .RESERVED ∨ (w'.option i).status = .RESERVED → w'.option i = w.option i
  fresh : ∀ i, w.pool.nextId ≤ i → i < w'.pool.nextId → (w'.option i).status = .OPEN
  reservedBy : ∀ h i, reservedBy ((l, w') :: h) i = BtcQuote.reservedBy h i
  closes : ∀ n, Closes n l = false

lemma TwoPhase.quiet (hinv : TwoPhase env h w) (hq : Quiet l w w') (htable : TableInv w'.pool) :
    TwoPhase env ((l, w') :: h) w' := by
  have hclosings : ∀ n, closings n ((l, w') :: h) = closings n h := by
    intro n
    simp only [closings, List.countP_cons, hq.closes n, Bool.false_eq_true, if_false, add_zero]
  have hkeep : ∀ n i, i < w.pool.nextId → Holds env h w n i → Holds env ((l, w') :: h) w' n i := by
    intro n i hi hn
    apply hn.keep (hq.reservedBy h i) (hq.same i hi (.inl hn.reserved)) _ _ (hclosings n)
    · rw [hq.own]
    · rw [hq.own]
  constructor
  · exact htable
  · intro i hi hreserved
    rcases lt_or_ge i w.pool.nextId with hlt | hge
    · rw [hq.same i hlt (.inr hreserved)] at hreserved
      obtain ⟨n, hn⟩ := hinv.held i hlt hreserved
      exact ⟨n, hkeep n i hlt hn⟩
    · rw [hq.fresh i hge hi] at hreserved
      cases hreserved
  · intro n hn
    rw [Live, hq.own] at hn
    obtain ⟨hi, hholds⟩ := hinv.live n hn
    rw [hq.own]
    exact ⟨hi.trans_le hq.nextId, hkeep n _ hi hholds⟩
  · intro n hn
    rw [hq.own] at hn ⊢
    rw [hclosings]
    exact hinv.unissued n hn
  · intro n
    rw [hclosings]
    exact hinv.once n

lemma quiet_of_same (hpool : w'.pool = w.pool) (hext : w'.own = w.own)
    (hby : ∀ h i, reservedBy ((l, w') :: h) i = reservedBy h i)
    (hcloses : ∀ n, Closes n l = false) :
    Quiet l w w' := by
  refine ⟨hext, hpool ▸ le_rfl, fun i _ _ => ?_, fun i hi hi' => ?_, hby, hcloses⟩
  · rw [World.option, hpool]
  · rw [hpool] at hi'
    exact absurd hi' (not_lt.mpr hi)

/-- The calls that are not about reservations. -/
lemma exec_quiet (hinv : TwoPhase env h w) (hreserve : ∀ i, c ≠ .reserveOption i)
    (hexecute : ∀ n, c ≠ .executeReservation n) (hcancel : ∀ n, c ≠ .cancelReservation n)
    (hexec : exec env tx c w = .ok (r, w')) : Quiet (.call tx c r) w w' := by
  have hadv := exec_advance hinv.table hinv.reserves hexec
  constructor
  · exact exec_ext hreserve hexecute hcancel hexec
  · exact hadv.nextId_le
  · intro i hi hstatus
    exact (hadv.stored i hi).reserved_iff hreserve hexecute hcancel hstatus
  · intro i hi hi'
    rcases hadv.created with hnext | ⟨hnext, t, s, e, a, p, coll, hnew, -⟩
    · omega
    · obtain rfl : i = w.pool.nextId := by omega
      rw [World.option, hnew]
      rfl
  · intro h i
    cases c with
    | reserveOption j => exact absurd rfl (hreserve j)
    | _ => rfl
  · intro n
    cases c with
    | executeReservation m => exact absurd rfl (hexecute m)
    | cancelReservation m => exact absurd rfl (hcancel m)
    | _ => rfl

/-! ### Reserving -/

/-- A new reservation holds its option; the others hold theirs. -/
lemma TwoPhase.reserve (hinv : TwoPhase env h w) (htx : tx.FromAccount env)
    (hexec : reserveOption env tx i w = .ok (r, w')) :
    TwoPhase env ((.call tx (.reserveOption i) r, w') :: h) w' := by
  have htable := exec_tableInv (c := .reserveOption i) hinv.table hinv.reserves htx hexec
  obtain ⟨amount, hash, hex, hopen, -, hwindow, -, -, hfits, rfl, hpool, hext, -⟩ :=
    reserveOption_ok hexec
  set n := w.own.nextReservationId with hn
  have hclosings : ∀ m, closings m ((.call tx (.reserveOption i) [.u256 n], w') :: h)
      = closings m h := fun m => rfl
  have hself : w'.option i = { w.option i with status := .RESERVED } := by
    rw [World.option, hpool, OptionStorage.get_setStatus_self]
  have hother : ∀ j ≠ i, w'.option j = w.option j := by
    intro j hj
    rw [World.option, hpool, OptionStorage.get_setStatus_of_ne hj]
  have hnew : w'.own.reservations.get n = newReservation tx i amount hash n := by
    rw [hext, ReservationStorage.get_set_self]
    rfl
  have hold : ∀ m ≠ n, w'.own.reservations.get m = w.own.reservations.get m := by
    intro m hm
    rw [hext, ReservationStorage.get_set_of_ne hm]
  have hnextRes : w'.own.nextReservationId = n + 1 := by rw [hext]
  have hnextId : w'.pool.nextId = w.pool.nextId := by rw [hpool]
  have hholds : Holds env ((.call tx (.reserveOption i) [.u256 n], w') :: h) w' n i := by
    constructor
    · exact if_pos rfl
    · rw [hself]
    · rw [hnew]; rfl
    · rw [hnew]; rfl
    · rw [hnextRes]
      exact Nat.lt_succ_self n
    · rw [hnew, hself]
      exact hwindow
    · rw [hnew]
      exact hfits
    · rw [hclosings]
      exact (hinv.unissued n le_rfl).2
    · rw [hnew]
      exact htx.ne_pool
    · rw [hnew]
      exact htx.ne_zero
  have hkeep : ∀ m j, Holds env h w m j →
      Holds env ((.call tx (.reserveOption i) [.u256 n], w') :: h) w' m j := by
    intro m j hm
    have hji : j ≠ i := by
      rintro rfl
      rw [hm.reserved] at hopen
      cases hopen
    apply hm.keep _ (hother j hji) (hold m hm.issued.ne) _ (hclosings m)
    · exact if_neg hji.symm
    · rw [hnextRes]
      exact Nat.le_succ n
  constructor
  · exact htable
  · intro j hj hreserved
    by_cases hji : j = i
    · subst hji
      exact ⟨n, hholds⟩
    · rw [hother j hji] at hreserved
      obtain ⟨m, hm⟩ := hinv.held j (hnextId ▸ hj) hreserved
      exact ⟨m, hkeep m j hm⟩
  · intro m hm
    by_cases hmn : m = n
    · subst hmn
      rw [hnew, hnextId]
      exact ⟨(hinv.table i).mp hex, hholds⟩
    · rw [Live, ReservationStorage.existsAt_iff, hold m hmn] at hm
      obtain ⟨hlt, hmj⟩ := hinv.live m hm
      rw [hold m hmn, hnextId]
      exact ⟨hlt, hkeep m _ hmj⟩
  · intro m hm
    rw [hnextRes] at hm
    have hmn : m ≠ n := by omega
    rw [ReservationStorage.existsAt_iff, hold m hmn, hclosings]
    exact hinv.unissued m (by omega)
  · intro m
    rw [hclosings]
    exact hinv.once m

/-! ### Closing a reservation -/

/-- What executing and cancelling have in common: the reservation `n` is closed and its option
leaves `RESERVED`. -/
structure ClosedBy (l : Label Call) (w w' : State) (n : ℕ) : Prop where
  nextId : w'.pool.nextId = w.pool.nextId
  nextReservationId : w'.own.nextReservationId = w.own.nextReservationId
  released : (w'.option (w.own.reservations.get n).optionId).status ≠ .RESERVED
  others : ∀ j ≠ (w.own.reservations.get n).optionId, w'.option j = w.option j
  gone : ¬ Live w' n
  kept : ∀ m ≠ n, w'.own.reservations.get m = w.own.reservations.get m
  reservedBy : ∀ h i, reservedBy ((l, w') :: h) i = BtcQuote.reservedBy h i
  closes : ∀ m, Closes m l = decide (n = m)

lemma TwoPhase.close (hinv : TwoPhase env h w) (hlive : Live w n) (hc : ClosedBy l w w' n)
    (htable : TableInv w'.pool) : TwoPhase env ((l, w') :: h) w' := by
  obtain ⟨hi, hholds⟩ := hinv.live n hlive
  set i := (w.own.reservations.get n).optionId with hiDef
  have hself : closings n ((l, w') :: h) = 1 := by
    simp only [closings, List.countP_cons, hc.closes, decide_true, if_true]
    rw [← closings, hholds.unclosed]
  have hclosings : ∀ m ≠ n, closings m ((l, w') :: h) = closings m h := by
    intro m hm
    simp only [closings, List.countP_cons, hc.closes, hm.symm, decide_false, Bool.false_eq_true,
      if_false, add_zero]
  have hkeep : ∀ m j, j ≠ i → m ≠ n → Holds env h w m j → Holds env ((l, w') :: h) w' m j := by
    intro m j hji hmn hm
    exact hm.keep (hc.reservedBy h j) (hc.others j hji) (hc.kept m hmn) hc.nextReservationId.ge
      (hclosings m hmn)
  constructor
  · exact htable
  · intro j hj hreserved
    have hji : j ≠ i := by
      rintro rfl
      exact hc.released hreserved
    rw [hc.others j hji] at hreserved
    obtain ⟨m, hm⟩ := hinv.held j (hc.nextId ▸ hj) hreserved
    have hmn : m ≠ n := by
      rintro rfl
      exact hji hm.stored.symm
    exact ⟨m, hkeep m j hji hmn hm⟩
  · intro m hm
    have hmn : m ≠ n := by
      rintro rfl
      exact hc.gone hm
    rw [Live, ReservationStorage.existsAt_iff, hc.kept m hmn] at hm
    obtain ⟨hlt, hmj⟩ := hinv.live m hm
    have hji : (w.own.reservations.get m).optionId ≠ i := by
      intro heq
      rw [heq] at hmj
      exact hmn (hmj.unique hholds)
    rw [hc.kept m hmn, hc.nextId]
    exact ⟨hlt, hkeep m _ hji hmn hmj⟩
  · intro m hm
    rw [hc.nextReservationId] at hm
    have hmn : m ≠ n := (hholds.issued.trans_le hm).ne'
    rw [ReservationStorage.existsAt_iff, hc.kept m hmn, hclosings m hmn]
    exact hinv.unissued m hm
  · intro m
    by_cases hmn : m = n
    · subst hmn
      exact hself.le
    · rw [hclosings m hmn]
      exact hinv.once m

lemma executeReservation_closes (h : executeReservation env tx n w = .ok (r, w')) :
    ClosedBy (.call tx (.executeReservation n) r) w w' n := by
  obtain ⟨-, -, -, -, hpool, hext, -⟩ := executeReservation_ok h
  constructor
  · rw [hpool]
  · rw [hext]
  · rw [World.option, hpool, get_setBuyer_setStatus, Function.update_self]
    simp
  · intro j hj
    rw [World.option, hpool, get_setBuyer_setStatus, Function.update_of_ne hj]
  · rintro ⟨-, hpending⟩
    rw [hext, ReservationStorage.get_setStatus_self] at hpending
    cases hpending
  · intro m hm
    rw [hext, ReservationStorage.get_setStatus_of_ne hm]
  · intro h i
    rfl
  · intro m
    rfl

lemma cancelReservation_closes (h : cancelReservation env tx n w = .ok (r, w')) :
    ClosedBy (.call tx (.cancelReservation n) r) w w' n := by
  obtain ⟨-, -, -, -, hpool, hext, -⟩ := cancelReservation_ok h
  constructor
  · rw [hpool]
  · rw [hext]
  · rw [World.option, hpool, OptionStorage.get_setStatus_self]
    simp
  · intro j hj
    rw [World.option, hpool, OptionStorage.get_setStatus_of_ne hj]
  · rintro ⟨hex, -⟩
    rw [hext, ReservationStorage.existsAt_iff, ReservationStorage.get_clear_self] at hex
    exact hex rfl
  · intro m hm
    rw [hext, ReservationStorage.get_clear_of_ne hm]
  · intro h i
    rfl
  · intro m
    rfl

/-! ### Runs -/

lemma TwoPhase.step (hinv : TwoPhase env h w) (hstep : Step env others (exec env) w l w') :
    TwoPhase env ((l, w') :: h) w' := by
  cases hstep with
  | @call tx c _ _ r htx hexec =>
    have htable := exec_tableInv hinv.table hinv.reserves htx hexec
    cases c with
    | reserveOption i => exact hinv.reserve htx hexec
    | executeReservation n =>
      obtain ⟨hex, hpending, -⟩ := executeReservation_ok hexec
      exact hinv.close ⟨hex, hpending⟩ (executeReservation_closes hexec) htable
    | cancelReservation n =>
      obtain ⟨hex, hpending, -⟩ := cancelReservation_ok hexec
      exact hinv.close ⟨hex, hpending⟩ (cancelReservation_closes hexec) htable
    | _ => exact hinv.quiet (exec_quiet hinv (by simp) (by simp) (by simp) hexec) htable
  | reverted => exact hinv.quiet (quiet_of_same rfl rfl (fun _ _ => rfl) fun _ => rfl) hinv.table
  | elsewhere => exact hinv.quiet (quiet_of_same rfl rfl (fun _ _ => rfl) fun _ => rfl) hinv.table

lemma twoPhase_of_deployed (hdep : Deployed w) : TwoPhase env [] w := by
  obtain ⟨hnext, -⟩ := hdep.base.spec
  have hempty : ∀ n, ¬ w.own.reservations.existsAt n := by
    intro n hex
    rw [hdep.own] at hex
    exact hex rfl
  constructor
  · exact hdep.base.tableInv
  · intro i hi
    rw [hnext] at hi
    exact absurd hi (Nat.not_lt_zero i)
  · intro n hn
    exact absurd hn.1 (hempty n)
  · intro n _
    exact ⟨hempty n, rfl⟩
  · intro n
    exact Nat.zero_le 1

lemma twoPhase_of_run (hdep : Deployed w₀) (hrun : Lts.Run (Step env others (exec env)) w₀ h w) :
    TwoPhase env h w := by
  apply hrun.induct (I := TwoPhase env) (twoPhase_of_deployed hdep)
  intro h t l u _ ht hstep
  exact ht.step hstep

/-! ### Safety -/

/-- An option that was sold or cancelled stays so. -/
lemma closed_of_run (hinv : TwoPhase env h w) (hi : i < w.pool.nextId)
    (hclosed : (w.option i).status ≠ .OPEN ∧ (w.option i).status ≠ .RESERVED)
    {h' : Lts.History State (Label Call)} (hrun : Lts.Run (Step env others (exec env)) w h' w') :
    (w'.option i).status ≠ .OPEN ∧ (w'.option i).status ≠ .RESERVED := by
  have hall := hrun.induct
    (I := fun h' v => TwoPhase env (h' ++ h) v ∧ i < v.pool.nextId ∧
      (v.option i).status ≠ .OPEN ∧ (v.option i).status ≠ .RESERVED) ⟨hinv, hi, hclosed⟩ ?_
  · exact hall.2.2
  · intro h' v l u _ hv hstep
    obtain ⟨htwo, hlt, hstatus⟩ := hv
    refine ⟨htwo.step hstep, ?_⟩
    cases hstep with
    | call htx hexec =>
      have hadv := exec_advance htwo.table htwo.reserves hexec
      exact ⟨hlt.trans_le hadv.nextId_le, (hadv.stored i hlt).closed hstatus⟩
    | reverted => exact ⟨hlt, hstatus⟩
    | elsewhere => exact ⟨hlt, hstatus⟩

/-- Two-phase commit, in every run: a reservation is executed or cancelled while it holds its
option, at most once, and execution makes its buyer the buyer of the option before the option
expires; an option that was sold or cancelled is not offered again. -/
theorem twoPhase_safe (hdep : Deployed w₀)
    (hrun : Lts.Run (Step env others (exec env)) w₀ h w) :
    (∀ tx c n r w', tx.FromAccount env → c = .executeReservation n ∨ c = .cancelReservation n →
        exec env tx c w = .ok (r, w') →
        (w.option (w.own.reservations.get n).optionId).status = .RESERVED ∧
          reservedBy h (w.own.reservations.get n).optionId = some n) ∧
      (∀ n, closings n h ≤ 1) ∧
      (∀ tx n r w', tx.FromAccount env → exec env tx (.executeReservation n) w = .ok (r, w') →
        (w'.option (w.own.reservations.get n).optionId).status = .PURCHASED ∧
          (w'.option (w.own.reservations.get n).optionId).buyer
            = (w.own.reservations.get n).buyer ∧
          tx.block < (w.option (w.own.reservations.get n).optionId).expiryBlock) ∧
      ∀ h' w', Lts.Run (Step env others (exec env)) w h' w' → ∀ i < w.pool.nextId,
        (w.option i).status ∈ [Status.PURCHASED, .EXERCISED, .EXPIRED, .CANCELLED] →
        (w'.option i).status ≠ .OPEN := by
  have hinv := twoPhase_of_run hdep hrun
  refine ⟨?_, hinv.once, ?_, ?_⟩
  · intro tx c n r w' _ hc hexec
    have hlive : Live w n := by
      rcases hc with rfl | rfl
      · obtain ⟨hex, hpending, -⟩ := executeReservation_ok hexec
        exact ⟨hex, hpending⟩
      · obtain ⟨hex, hpending, -⟩ := cancelReservation_ok hexec
        exact ⟨hex, hpending⟩
    obtain ⟨-, hholds⟩ := hinv.live n hlive
    exact ⟨hholds.reserved, hholds.made⟩
  · intro tx n r w' _ hexec
    obtain ⟨hex, hpending, hblock, -, hpool, -⟩ := executeReservation_ok hexec
    obtain ⟨-, hholds⟩ := hinv.live n ⟨hex, hpending⟩
    rw [World.option, hpool, get_setBuyer_setStatus, Function.update_self]
    exact ⟨rfl, rfl, hblock.trans hholds.block⟩
  · intro h' w' hrun' i hi hstatus
    have hclosed : (w.option i).status ≠ .OPEN ∧ (w.option i).status ≠ .RESERVED := by
      constructor <;> intro heq <;> rw [heq] at hstatus <;> simp at hstatus
    exact (closed_of_run hinv hi hclosed hrun').1

/-- Option 1 when its reservation is about to be cancelled. -/
theorem twoPhase_safe_reserved :
    ∃ h, Lts.Run (Step Testnet.env (Ledger.FixedAt Testnet.env.contractAddress) (exec Testnet.env))
        Testnet.world h (Testnet.reserved 1) ∧
      ((Testnet.reserved 1).option 1).status = .RESERVED ∧ reservedBy h 1 = some 0 := by
  obtain ⟨h, hrun⟩ := Testnet.run_reserved 1 (Ledger.FixedAt Testnet.env.contractAddress) rfl
  refine ⟨h, hrun, ?_⟩
  exact (twoPhase_safe Testnet.deployed hrun).1 (Frogop.Testnet.tx 12 245) (.cancelReservation 0) 0
    [.boolean true] _ ⟨by decide, by decide⟩ (.inr rfl) (Frogop.Testnet.exec_next rfl)

/-! ### Recovery -/

/-- The option `i` can leave `RESERVED` through the reservation `n` that reserved it. -/
structure Recoverable (env : Env) (h : Lts.History State (Label Call)) (w : State) (i n : ℕ) :
    Prop where
  made : reservedBy h i = some n
  executes : ∀ tx v, tx.block < (w.own.reservations.get n).expiryBlock →
    w.queryVerifyBtcOutput env tx (w.own.reservations.get n).csvScriptHash
      (w.own.reservations.get n).btcAmount = .ok (true, v) →
    ∃ r w', executeReservation env tx n w = .ok (r, w') ∧ (w'.option i).status = .PURCHASED
  cancels : ∀ tx, (w.own.reservations.get n).expiryBlock ≤ tx.block →
    ∃ r w', cancelReservation env tx n w = .ok (r, w') ∧ (w'.option i).status = .OPEN

/-- A reservation that is found lets its option go. -/
lemma Holds.recoverable (hgrow : env.writers = .growing) (hn : Holds env h w n i)
    (hi : i ≠ 0) : Recoverable env h w i n := by
  have hex : w.own.reservations.existsAt n := by
    rw [ReservationStorage.existsAt_iff, hn.stored]
    exact hi
  refine ⟨hn.made, ?_, ?_⟩
  · intro tx v hblock hverified
    have hexec : ∃ r w', executeReservation env tx n w = .ok (r, w') := by
      simp only [executeReservation, bind_eq_ok, require_eq_ok, Prod.exists, emit_eq_ok,
        respond_eq_ok]
      exact ⟨_, _, (), hex, (), hn.pending, (), hblock, (), hn.amount, true, v, hverified, (), rfl,
        _, ⟨.inl hgrow, rfl⟩, .inl hgrow, rfl⟩
    obtain ⟨r, w', hexec⟩ := hexec
    obtain ⟨-, -, -, -, hpool, -⟩ := executeReservation_ok hexec
    refine ⟨r, w', hexec, ?_⟩
    rw [World.option, hpool, get_setBuyer_setStatus, hn.stored, Function.update_self]
  · intro tx hblock
    have hexec : ∃ r w', cancelReservation env tx n w = .ok (r, w') := by
      simp only [cancelReservation, bind_eq_ok, require_eq_ok, emit_eq_ok, respond_eq_ok]
      exact ⟨_, _, (), hex, (), hn.pending, (), hblock, _, ⟨.inl hgrow, rfl⟩, _,
        ⟨.inl hgrow, rfl⟩, .inl hgrow, rfl⟩
    obtain ⟨r, w', hexec⟩ := hexec
    obtain ⟨-, -, -, -, hpool, -⟩ := cancelReservation_ok hexec
    refine ⟨r, w', hexec, ?_⟩
    rw [World.option, hpool, hn.stored, OptionStorage.get_setStatus_self]

/-- A reserved option can leave `RESERVED` exactly when its id is not zero. -/
theorem recoverable_iff (hgrow : env.writers = .growing) (hdep : Deployed w₀)
    (hrun : Lts.Run (Step env others (exec env)) w₀ h w) (hi : i < w.pool.nextId)
    (hreserved : (w.option i).status = .RESERVED) : (∃ n, Recoverable env h w i n) ↔ i ≠ 0 := by
  obtain ⟨n, hn⟩ := (twoPhase_of_run hdep hrun).held i hi hreserved
  constructor
  · rintro ⟨m, hm⟩ rfl
    obtain rfl : n = m := Option.some.inj (hn.made.symm.trans hm.made)
    obtain ⟨r, w', hcancel, -⟩ := hm.cancels
      { sender := Address.zero, block := (w.own.reservations.get n).expiryBlock, outputs := [],
        getQuote := fun _ _ => none } le_rfl
    obtain ⟨hex, -⟩ := cancelReservation_ok hcancel
    exact hex hn.stored
  · intro hne
    exact ⟨n, hn.recoverable hgrow hne⟩

theorem recoverable_reserved :
    ∃ h, Lts.Run (Step Testnet.env (Ledger.FixedAt Testnet.env.contractAddress) (exec Testnet.env))
        Testnet.world h (Testnet.reserved 1) ∧
      ((∃ n, Recoverable Testnet.env h (Testnet.reserved 1) 1 n) ↔ (1 : ℕ) ≠ 0) := by
  obtain ⟨h, hrun⟩ := Testnet.run_reserved 1 (Ledger.FixedAt Testnet.env.contractAddress) rfl
  exact ⟨h, hrun, recoverable_iff rfl Testnet.deployed hrun (by decide) rfl⟩

/-- The first option of a pool, once reserved, stays reserved: no reservation is found. -/
theorem reserved_zero_is_stuck :
    ∃ h w, Lts.Run (Step Testnet.env (Ledger.FixedAt Testnet.env.contractAddress)
        (exec Testnet.env)) Testnet.world h w ∧
      Deployed Testnet.world ∧ Testnet.env.writers = .growing ∧ 0 < w.pool.nextId ∧
      (w.option 0).status = .RESERVED ∧
      ∀ tx n, executeReservation Testnet.env tx n w = .error (.revert "Reservation not found") ∧
        cancelReservation Testnet.env tx n w = .error (.revert "Reservation not found") := by
  obtain ⟨h, hrun⟩ := Testnet.run_reserved 0 (Ledger.FixedAt Testnet.env.contractAddress) rfl
  refine ⟨h, _, hrun, Testnet.deployed, rfl, by decide, rfl, ?_⟩
  intro tx n
  have hgone : ¬ (Testnet.reserved 0).own.reservations.existsAt n := by
    cases n <;> exact fun hex => hex rfl
  constructor
  · rw [executeReservation, require_of_not hgone, error_bind]
  · rw [cancelReservation, require_of_not hgone, error_bind]

end

end Frogop.BtcQuote
