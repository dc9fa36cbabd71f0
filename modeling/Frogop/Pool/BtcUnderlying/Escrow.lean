import Frogop.Pool.BtcUnderlying.Lifecycle
import Frogop.Pool.Registry

/-!
# The escrow of a BTC CALL

`writeOptionBtc` fixes the hash of the escrow script before there is a buyer, with a placeholder
for the buyer's key, and nothing replaces it later. The invariant of all runs, `EscrowInv`, says
what is stored and announced for every CALL. All of it is about a registry that gives keys back
whole: with slots of one word no CALL is ever written (`put_of_run`).
-/

namespace Frogop.BtcUnderlying

open Outcome World

/-! ### What a history says of keys -/

/-- The key an account registered last. -/
def registeredKey : Lts.History State (Label Call) → Address → Option (List UInt8)
  | [], _ => none
  | (.call tx (.registerBtcPubkey data) _, _) :: h, a =>
    if tx.sender = a then some (data.take 33) else registeredKey h a
  | _ :: h, a => registeredKey h a

/-- The key the writer of an option had registered when writing it. -/
def writerKey : Lts.History State (Label Call) → ℕ → Option (List UInt8)
  | [], _ => none
  | (.call tx (.writeOptionBtc _ _ _ _ _) [.u256 n], _) :: h, i =>
    if n = i then registeredKey h tx.sender else writerKey h i
  | _ :: h, i => writerKey h i

/-- The registry gives keys of 33 bytes back as they were registered. -/
def RegistryFaithful (env : Env) : Prop :=
  ∀ pubkey : List UInt8, pubkey.length = 33 → (env.slot pubkey).take 33 = pubkey

/-- The script hash tells two scripts apart. -/
def NoCollision (env : Env) (script script' : List UInt8) : Prop :=
  env.sha256 script = env.sha256 script' → script = script'

/-! ### The invariant -/

structure EscrowInv (env : Env) (h : Lts.History State (Label Call)) (w : State) : Prop where
  registry : ∀ a, w.pool.pubkeys a = (registeredKey h a).elim [] env.slot
  registered : ∀ a pubkey, registeredKey h a = some pubkey → pubkey.length = 33
  escrow : ∀ i < w.pool.nextId, (w.option i).optionType = .CALL →
    ∃ writerPub, writerKey h i = some writerPub ∧ writerPub.length = 33 ∧
      w.own.escrowHash i = env.sha256
        (Bridge.escrowScript placeholderBuyer writerPub (w.pool.graceEnd (w.option i)))
  claimed : ∀ i < w.pool.nextId, (w.option i).optionType = .CALL →
    (w.option i).status = .EXERCISED →
    (w.option i).expiryBlock < w.pool.graceEnd (w.option i) ∧ claimEvent w (w.option i) ∈ w.events

section

variable {env : Env} {others : Ledger → Ledger → Prop} {tx : Tx} {c : Call} {w₀ w w' : State}
  {r : Response} {i : ℕ} {h : Lts.History State (Label Call)} {l : Label Call}
  {o o' : OptionRecord} {pubkey : List UInt8}

/-- A registered key is read back. -/
lemma EscrowInv.key (hinv : EscrowInv env h w) (hslot : RegistryFaithful env) {a : Address}
    (hpubkey : w.pool.registeredPubkey a = .ok pubkey) :
    registeredKey h a = some pubkey ∧ pubkey.length = 33 := by
  simp only [PoolStorage.registeredPubkey, bind_eq_ok, require_eq_ok, pure_eq,
    Except.ok.injEq] at hpubkey
  obtain ⟨-, ⟨b, hb, -⟩, rfl⟩ := hpubkey
  rw [hinv.registry a] at hb ⊢
  cases hkey : registeredKey h a with
  | none =>
    rw [hkey] at hb
    cases hb
  | some k =>
    have hlen := hinv.registered a k hkey
    show some k = some ((env.slot k).take 33) ∧ ((env.slot k).take 33).length = 33
    rw [hslot k hlen]
    exact ⟨rfl, hlen⟩

/-! ### Calls that leave the escrows alone -/

lemma exec_frame (hwrite : ∀ t s e a p, c ≠ .writeOptionBtc t s e a p)
    (hregister : ∀ data, c ≠ .registerBtcPubkey data) (hexec : exec env tx c w = .ok (r, w')) :
    w'.pool.nextId = w.pool.nextId ∧ w'.pool.pubkeys = w.pool.pubkeys ∧ Announces w w' ∧
      ∀ i, c = .exercise i → (w.option i).optionType = .CALL →
        claimEvent w (w.option i) ∈ w'.events := by
  cases c with
  | writeOptionBtc t s e a p => exact absurd rfl (hwrite t s e a p)
  | registerBtcPubkey data => exact absurd rfl (hregister data)
  | buyOption i =>
    obtain ⟨_, _, _, -, -, -, -, -, -, -, -, -, rfl⟩ := OptionsPool.buyOption_ok hexec
    exact ⟨rfl, rfl, ⟨rfl, _, rfl⟩, fun j hj => by cases hj⟩
  | exercise i =>
    obtain ⟨_, _, _, -, -, -, -, -, -, -, hpool, hown, -, hevents, hclaim⟩ := exercise_ok hexec
    rw [hpool]
    refine ⟨rfl, rfl, ⟨hown, hevents⟩, fun j hj htype => ?_⟩
    cases hj
    exact hclaim htype
  | cancelOption i =>
    obtain ⟨-, -, -, hpool, hann⟩ := cancelOption_update hexec
    rw [hpool]
    exact ⟨rfl, rfl, hann, fun j hj => by cases hj⟩
  | settle i =>
    obtain ⟨-, -, -, hpool, hann⟩ := settle_update hexec
    rw [hpool]
    exact ⟨rfl, rfl, hann, fun j hj => by cases hj⟩
  | getOption i =>
    rw [getOption_ok hexec]
    exact ⟨rfl, rfl, ⟨rfl, [], (List.append_nil _).symm⟩, fun j hj => by cases hj⟩
  | updateFeeRecipient newRecipient =>
    obtain ⟨-, -, -, rfl⟩ := updateFeeRecipient_ok hexec
    exact ⟨rfl, rfl, ⟨rfl, _, rfl⟩, fun j hj => by cases hj⟩

/-- An option that was claimable stays so, and becomes so when it is exercised. -/
lemma Transition.claimed (ht : Transition w.pool tx c o o') (hown : w'.own = w.own)
    (hevents : ∃ events, w'.events = w.events ++ events)
    (hold : o.status = .EXERCISED → o.expiryBlock < w.pool.graceEnd o ∧ claimEvent w o ∈ w.events)
    (hnew : c = .exercise o.id → claimEvent w o ∈ w'.events) (hstatus : o'.status = .EXERCISED) :
    o'.expiryBlock < w.pool.graceEnd o' ∧ claimEvent w' o' ∈ w'.events := by
  cases ht with
  | stays =>
    obtain ⟨hgrace, hmem⟩ := hold hstatus
    obtain ⟨events, hevents⟩ := hevents
    rw [claimEvent, hown, hevents]
    exact ⟨hgrace, List.mem_append_left _ hmem⟩
  | exercised hc _ _ hexpiry hgrace =>
    have hmem := hnew hc
    rw [claimEvent, hown]
    exact ⟨hexpiry.trans_lt hgrace, hmem⟩
  | bought | cancelled | settled => cases hstatus

/-- The labels that register no key and write no option. -/
structure Keyless (l : Label Call) (w' : State) : Prop where
  registered : ∀ h a, registeredKey ((l, w') :: h) a = registeredKey h a
  written : ∀ h i, writerKey ((l, w') :: h) i = writerKey h i

lemma EscrowInv.frame (hinv : EscrowInv env h w) (htable : TableInv w.pool) (hl : Keyless l w')
    (hwrite : ∀ t s e a p, c ≠ .writeOptionBtc t s e a p)
    (hregister : ∀ data, c ≠ .registerBtcPubkey data) (hexec : exec env tx c w = .ok (r, w')) :
    EscrowInv env ((l, w') :: h) w' := by
  have hadv := exec_advance htable hexec
  obtain ⟨hnext, hpubkeys, hann, hclaim⟩ := exec_frame hwrite hregister hexec
  have hgrace : ∀ i < w.pool.nextId,
      w'.pool.graceEnd (w'.option i) = w.pool.graceEnd (w.option i) := by
    intro i hi
    rw [PoolStorage.graceEnd, hadv.gracePeriod, (hadv.stored i hi).sameTerms.expiryBlock]
    rfl
  constructor
  · intro a
    rw [hl.registered, hpubkeys]
    exact hinv.registry a
  · intro a k hk
    rw [hl.registered] at hk
    exact hinv.registered a k hk
  · intro i hi htype
    rw [hnext] at hi
    rw [(hadv.stored i hi).sameTerms.optionType] at htype
    rw [hl.written, hann.own, hgrace i hi]
    exact hinv.escrow i hi htype
  · intro i hi htype hstatus
    rw [hnext] at hi
    have ht := hadv.stored i hi
    rw [ht.sameTerms.optionType] at htype
    obtain ⟨hexpiry, hmem⟩ := ht.claimed hann.own hann.events (hinv.claimed i hi htype)
      (fun hc => hclaim i hc htype) hstatus
    rw [PoolStorage.graceEnd, hadv.gracePeriod]
    exact ⟨hexpiry, hmem⟩

/-! ### Registering and writing -/

lemma EscrowInv.register {data : List UInt8} (hinv : EscrowInv env h w)
    (hexec : registerBtcPubkey env tx data w = .ok (r, w')) :
    EscrowInv env ((.call tx (.registerBtcPubkey data) r, w') :: h) w' := by
  obtain ⟨pubkey, rfl, ⟨hlen, -⟩, -, rfl⟩ := registerBtcPubkey_ok hexec
  constructor
  · intro a
    simp only [registeredKey]
    by_cases ha : tx.sender = a
    · subst ha
      rw [Function.update_self, if_pos rfl]
      rfl
    · rw [Function.update_of_ne (Ne.symm ha), if_neg ha]
      exact hinv.registry a
  · intro a k hk
    simp only [registeredKey] at hk
    split_ifs at hk with ha
    · cases hk
      exact hlen
    · exact hinv.registered a k hk
  · exact hinv.escrow
  · exact hinv.claimed

/-- Writing an option leaves the other options and their escrows alone. -/
lemma EscrowInv.write (hinv : EscrowInv env h w) {t s e a p : ℕ} {o : OptionRecord}
    (hpool : w'.pool = { w.pool with
      nextId := w.pool.nextId + 1
      options := w.pool.options.set w.pool.nextId o })
    (hhash : ∀ i ≠ w.pool.nextId, w'.own.escrowHash i = w.own.escrowHash i)
    (hamount : ∀ i ≠ w.pool.nextId, w'.own.btcCollateral i = w.own.btcCollateral i)
    (hevents : ∃ events, w'.events = w.events ++ events) (hopen : o.status = .OPEN)
    (hcall : o.optionType = .CALL → ∃ writerPub, registeredKey h tx.sender = some writerPub ∧
      writerPub.length = 33 ∧ w'.own.escrowHash w.pool.nextId = env.sha256
        (Bridge.escrowScript placeholderBuyer writerPub (w.pool.graceEnd o))) :
    EscrowInv env ((.call tx (.writeOptionBtc t s e a p) [.u256 w.pool.nextId], w') :: h) w' := by
  have hself : w'.option w.pool.nextId = { o with id := w.pool.nextId } := by
    rw [World.option, hpool, OptionStorage.get_set_self]
  have hother : ∀ i ≠ w.pool.nextId, w'.option i = w.option i := by
    intro i hi
    rw [World.option, hpool, OptionStorage.get_set_of_ne hi]
  have hgrace : ∀ o, w'.pool.graceEnd o = w.pool.graceEnd o := by
    intro o
    rw [hpool]
    rfl
  constructor
  · intro a
    rw [hpool]
    exact hinv.registry a
  · exact hinv.registered
  · intro i hi htype
    simp only [writerKey, hgrace]
    by_cases hnew : i = w.pool.nextId
    · subst hnew
      rw [hself] at htype ⊢
      rw [if_pos rfl]
      exact hcall htype
    · rw [if_neg (Ne.symm hnew), hhash i hnew, hother i hnew]
      rw [hother i hnew] at htype
      rw [hpool] at hi
      exact hinv.escrow i (by simp only at hi; omega) htype
  · intro i hi htype hstatus
    by_cases hnew : i = w.pool.nextId
    · subst hnew
      rw [hself] at hstatus
      exact absurd (hopen.symm.trans hstatus) (by decide)
    · rw [hother i hnew] at htype hstatus ⊢
      rw [hpool] at hi
      obtain ⟨hexpiry, hmem⟩ := hinv.claimed i (by simp only at hi; omega) htype hstatus
      obtain ⟨events, hevents⟩ := hevents
      rw [hgrace, hevents, claimEvent, OptionStorage.get_id, hhash i hnew, hamount i hnew]
      exact ⟨hexpiry, List.mem_append_left _ hmem⟩

lemma EscrowInv.writeOptionBtc (hinv : EscrowInv env h w) (hslot : RegistryFaithful env)
    {t s e a p : ℕ} (hexec : writeOptionBtc env tx t s e a p w = .ok (r, w')) :
    EscrowInv env ((.call tx (.writeOptionBtc t s e a p) r, w') :: h) w' := by
  obtain ⟨-, -, -, hcall | hput⟩ := writeOptionBtc_ok hexec
  · obtain ⟨writerPub, hash, -, hpubkey, -, hhash, rfl, hpool, hown, -, hevents⟩ :=
      writeCall_ok hcall
    obtain ⟨hkey, hlen⟩ := hinv.key hslot hpubkey
    obtain ⟨-, rfl⟩ := (queryEscrowScriptHash_eq rfl hlen (u64Add_lt _ _)).mp hhash
    refine hinv.write hpool ?_ ?_ hevents rfl ?_
    · intro i hi
      rw [hown]
      exact Function.update_of_ne hi _ _
    · intro i hi
      rw [hown]
      exact Function.update_of_ne hi _ _
    · intro _
      rw [hown]
      exact ⟨writerPub, hkey, hlen, Function.update_self _ _ _⟩
  · obtain ⟨_, -, -, rfl, hpool, hown, hevents⟩ := writePut_ok hput
    refine hinv.write hpool ?_ ?_ hevents rfl ?_
    · intro i _
      rw [hown]
    · intro i _
      rw [hown]
    · intro htype
      cases htype

/-! ### Runs -/

lemma EscrowInv.step (hinv : EscrowInv env h w) (hslot : RegistryFaithful env)
    (htable : TableInv w.pool) (hstep : Step env others (exec env) w l w') :
    EscrowInv env ((l, w') :: h) w' := by
  cases hstep with
  | @call tx c _ _ r htx hexec =>
    cases c with
    | writeOptionBtc t s e a p => exact hinv.writeOptionBtc hslot hexec
    | registerBtcPubkey data => exact hinv.register hexec
    | _ =>
      exact hinv.frame htable ⟨fun _ _ => rfl, fun _ _ => rfl⟩ (by simp) (by simp) hexec
  | reverted => exact ⟨hinv.registry, hinv.registered, hinv.escrow, hinv.claimed⟩
  | elsewhere => exact ⟨hinv.registry, hinv.registered, hinv.escrow, hinv.claimed⟩

lemma escrowInv_of_run (hslot : RegistryFaithful env) (hdep : Deployed w₀)
    (hrun : Lts.Run (Step env others (exec env)) w₀ h w) : EscrowInv env h w := by
  refine hrun.induct (I := EscrowInv env) ?_ ?_
  · obtain ⟨hnext, -, -, -, -, hpubkeys⟩ := hdep.base.spec
    constructor
    · intro a
      rw [hpubkeys]
      rfl
    · intro a k hk
      cases hk
    · intro i hi
      omega
    · intro i hi
      omega
  · intro h v l u hrun hv hstep
    exact hv.step hslot (lifeInv_of_run hdep hrun).table hstep

/-! ### Slots of one word -/

/-- A slot of one word has no room for a key. -/
lemma registeredPubkey_short (hslot : env.slot = storageWord) (hdep : Deployed w₀)
    (hrun : Lts.Run (Step env others (exec env)) w₀ h w) {a : Address}
    (hpubkey : w.pool.registeredPubkey a = .ok pubkey) : pubkey.length ≤ 32 := by
  have hshort : ∀ a, (w.pool.pubkeys a).length ≤ 32 := by
    refine hrun.invariant (I := fun v => ∀ a, (v.pool.pubkeys a).length ≤ 32) ?_ ?_
    · obtain ⟨-, -, -, -, -, hpubkeys⟩ := hdep.base.spec
      intro a
      rw [hpubkeys]
      exact Nat.zero_le _
    · intro v l v' hv hstep
      cases hstep with
      | reverted | elsewhere => exact hv
      | @call tx c _ _ r htx hexec =>
        cases c with
        | registerBtcPubkey data =>
          obtain ⟨pubkey, -, -, -, rfl⟩ := registerBtcPubkey_ok hexec
          intro a
          rcases eq_or_ne a tx.sender with rfl | hne
          · simp only [Function.update_self, hslot, storageWord]
            exact List.length_take_le 32 _
          · simp only [Function.update_of_ne hne]
            exact hv a
        | writeOptionBtc t s e a p =>
          obtain ⟨-, -, -, hcall | hput⟩ := writeOptionBtc_ok hexec
          · obtain ⟨_, _, -, -, -, -, -, hpool, -⟩ := writeCall_ok hcall
            rw [hpool]
            exact hv
          · obtain ⟨_, -, -, -, hpool, -⟩ := writePut_ok hput
            rw [hpool]
            exact hv
        | _ =>
          obtain ⟨-, hpubkeys, -⟩ := exec_frame (by simp) (by simp) hexec
          rw [hpubkeys]
          exact hv
  simp only [PoolStorage.registeredPubkey, bind_eq_ok, require_eq_ok, pure_eq,
    Except.ok.injEq] at hpubkey
  obtain ⟨-, -, rfl⟩ := hpubkey
  exact (List.length_take_le' _ _).trans (hshort a)

/-- Every option is a PUT: a CALL is refused for the length of its writer's key. -/
lemma put_of_run (hslot : env.slot = storageWord) (hdep : Deployed w₀)
    (hrun : Lts.Run (Step env others (exec env)) w₀ h w) :
    ∀ i < w.pool.nextId, (w.option i).optionType = .PUT := by
  refine options_of_run (P := fun o => o.optionType = .PUT) hdep.base hrun ?_
  intro h v tx c r v' hrun htx hexec hputs i hi
  have hadv := exec_advance (lifeInv_of_run hdep hrun).table hexec
  rcases lt_or_ge i v.pool.nextId with hlt | hge
  · have hterms := (hadv.stored i hlt).sameTerms
    rw [World.option, hterms.optionType]
    exact hputs i hlt
  · cases c with
    | writeOptionBtc t s e a p =>
      obtain ⟨-, -, -, hcall | hput⟩ := writeOptionBtc_ok hexec
      · obtain ⟨key, _, -, hkey, hlen, -⟩ := writeCall_ok hcall
        have hshort := registeredPubkey_short hslot hdep hrun hkey
        omega
      · obtain ⟨_, -, -, -, hpool, -⟩ := writePut_ok hput
        obtain rfl : i = v.pool.nextId := by
          rw [hpool] at hi
          exact le_antisymm (Nat.lt_succ_iff.mp hi) hge
        rw [World.option, hpool, OptionStorage.get_set_self]
        rfl
    | registerBtcPubkey data =>
      obtain ⟨_, -, -, -, rfl⟩ := registerBtcPubkey_ok hexec
      exact absurd hi (not_lt.mpr hge)
    | _ =>
      obtain ⟨hnext, -⟩ := exec_frame (by simp) (by simp) hexec
      omega

/-! ### Claiming -/

/-- The key of the buyer is part of the escrow script. -/
lemma escrowScript_inj {buyerPub buyerPub' writerPub : List UInt8} {n : ℕ}
    (hlen : buyerPub.length = 33) (hlen' : buyerPub'.length = 33)
    (h : Bridge.escrowScript buyerPub writerPub n = Bridge.escrowScript buyerPub' writerPub n) :
    buyerPub = buyerPub' := by
  simpa [Bridge.escrowScript, Bridge.push, hlen, hlen'] using h

/-- The escrow of the option `i`, as stored and as announced to its buyer, is the script that the
buyer can spend from with the registered key, and the writer from the end of the grace period. -/
def Claimable (env : Env) (h : Lts.History State (Label Call)) (w : State) (i : ℕ) : Prop :=
  ∃ buyerPub writerPub hash,
    registeredKey h (w.option i).buyer = some buyerPub ∧ writerKey h i = some writerPub ∧
    hash = env.sha256 (Bridge.escrowScript buyerPub writerPub
      ((w.option i).expiryBlock + w.pool.gracePeriod)) ∧
    w.own.escrowHash i = hash ∧
    ⟨.btcClaimable, 128, [.u256 i, .address (w.option i).buyer, .u256 (w.own.btcCollateral i),
      .bytes hash.val]⟩ ∈ w.events

/-- The escrow of an exercised CALL is the buyer's exactly when the key the buyer registered is the
placeholder. -/
theorem claimable_iff (hslot : RegistryFaithful env) (hdep : Deployed w₀)
    (hrun : Lts.Run (Step env others (exec env)) w₀ h w) (hi : i < w.pool.nextId)
    (htype : (w.option i).optionType = .CALL) (hexercised : (w.option i).status = .EXERCISED)
    (hdistinct : ∀ buyerPub writerPub, registeredKey h (w.option i).buyer = some buyerPub →
      writerKey h i = some writerPub → NoCollision env
        (Bridge.escrowScript buyerPub writerPub
          ((w.option i).expiryBlock + w.pool.gracePeriod))
        (Bridge.escrowScript placeholderBuyer writerPub
          ((w.option i).expiryBlock + w.pool.gracePeriod))) :
    Claimable env h w i ↔ registeredKey h (w.option i).buyer = some placeholderBuyer := by
  have hinv := escrowInv_of_run hslot hdep hrun
  have hlife := lifeInv_of_run hdep hrun
  obtain ⟨writerPub, hwriter, -, hhash⟩ := hinv.escrow i hi htype
  obtain ⟨hgrace, hmem⟩ := hinv.claimed i hi htype hexercised
  have hend : w.pool.graceEnd (w.option i) = (w.option i).expiryBlock + w.pool.gracePeriod :=
    u64Add_of_lt (PoolStorage.graceEnd_noWrap hlife.graceMax (hlife.options i hi).expiry hgrace)
  rw [hend] at hhash
  constructor
  · rintro ⟨buyerPub, writerPub', hash, hbuyer, hwriter', rfl, hstored, -⟩
    obtain rfl : writerPub = writerPub' := Option.some.inj (hwriter.symm.trans hwriter')
    have hscript := hdistinct buyerPub writerPub hbuyer hwriter (hstored.symm.trans hhash)
    rw [hbuyer, escrowScript_inj (hinv.registered _ _ hbuyer) rfl hscript]
  · intro hbuyer
    refine ⟨placeholderBuyer, writerPub, _, hbuyer, hwriter, rfl, hhash, ?_⟩
    rw [← hhash]
    exact hmem

theorem claimable_placeholder :
    Claimable Testnet.env (replayed (exec Testnet.env) Testnet.world
        (Testnet.exercising placeholderBuyer)) (Testnet.exercised placeholderBuyer) 0 ↔
      registeredKey (replayed (exec Testnet.env) Testnet.world
        (Testnet.exercising placeholderBuyer)) (Frogop.Testnet.account 11)
        = some placeholderBuyer := by
  have hrun := Frogop.Testnet.run_after (Ledger.FixedAt Testnet.env.contractAddress)
    (Testnet.exercising_fromAccount placeholderBuyer)
    (by rfl : (replay (exec Testnet.env) Testnet.world _).isOk = true)
  refine claimable_iff (fun _ hlen => List.take_of_length_le hlen.le) Testnet.deployed hrun
    (by decide) rfl rfl ?_
  intro buyerPub writerPub hbuyer _ _
  obtain rfl : placeholderBuyer = buyerPub := Option.some.inj hbuyer
  rfl

set_option maxRecDepth 2000 in
/-- A CALL that the buyer paid for and exercised, and whose escrow the buyer's key does not open. -/
theorem exercised_call_unclaimable :
    ∃ h w, Lts.Run (Step Testnet.env (Ledger.FixedAt Testnet.env.contractAddress)
        (exec Testnet.env)) Testnet.world h w ∧
      Deployed Testnet.world ∧ RegistryFaithful Testnet.env ∧ 0 < w.pool.nextId ∧
      (w.option 0).optionType = .CALL ∧ (w.option 0).status = .EXERCISED ∧
      registeredKey h (w.option 0).buyer = some Testnet.buyerPub ∧
      writerKey h 0 = some Testnet.writerPub ∧
      NoCollision Testnet.env (Bridge.escrowScript Testnet.buyerPub Testnet.writerPub 1144)
        (Bridge.escrowScript placeholderBuyer Testnet.writerPub 1144) ∧
      (w.option 0).expiryBlock + w.pool.gracePeriod = 1144 ∧ ¬ Claimable Testnet.env h w 0 := by
  have hrun := Frogop.Testnet.run_after (Ledger.FixedAt Testnet.env.contractAddress)
    (Testnet.exercising_fromAccount Testnet.buyerPub)
    (by rfl : (replay (exec Testnet.env) Testnet.world _).isOk = true)
  refine ⟨_, _, hrun, Testnet.deployed, fun _ hlen => List.take_of_length_le hlen.le, by decide,
    rfl, rfl, rfl, rfl, ?_, rfl, ?_⟩
  · intro hhash
    exact absurd hhash (by decide)
  · rintro ⟨buyerPub, writerPub, hash, hbuyer, hwriter, rfl, hstored, -⟩
    obtain rfl : Testnet.buyerPub = buyerPub := Option.some.inj hbuyer
    obtain rfl : Testnet.writerPub = writerPub := Option.some.inj hwriter
    exact absurd hstored (by decide)

end

end Frogop.BtcUnderlying
