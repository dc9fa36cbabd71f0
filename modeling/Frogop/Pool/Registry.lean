import Frogop.Pool.BridgeCalls
import Frogop.Pool.Execution

/-!
# The registry of Bitcoin keys

`registerBtcPubkey` stores a compressed key of 33 bytes in one slot. A slot of the chain holds one
word of 32 bytes, so the last byte of the key is lost, and what the pools send to the bridge is
read there one byte off.
-/

namespace Frogop

open Outcome

variable {σ : Type}

/-- What a slot of one word keeps: shorter values are padded with zeros, longer ones are cut. -/
def storageWord (bytes : List UInt8) : List UInt8 := (bytes ++ List.replicate 32 0).take 32

/-! ### What an account registered -/

/-- The key an account registered last. -/
def lastRegistered : Lts.History (World σ) (Label (List UInt8)) → Address → Option (List UInt8)
  | [], _ => none
  | (.call tx data _, _) :: h, a =>
    if tx.sender = a then some (data.take 33) else lastRegistered h a
  | _ :: h, a => lastRegistered h a

/-- A registered key lies in the slot of its account as the slot keeps it. -/
structure Registered (env : Env) (w : World σ) (a : Address) (pubkey : List UInt8) : Prop where
  stored : w.pool.pubkeys a = env.slot pubkey
  length : pubkey.length = 33
  compressed : pubkey.head? = some 0x02 ∨ pubkey.head? = some 0x03

section

variable {env : Env} {others : Ledger → Ledger → Prop} {w w₀ : World σ} {a : Address}
  {pubkey : List UInt8} {h : Lts.History (World σ) (Label (List UInt8))}

/-- The last registration of every account is in its slot. -/
lemma registered_of_run (hrun : Lts.Run (Step env others (registerBtcPubkey env)) w₀ h w) :
    ∀ a pubkey, lastRegistered h a = some pubkey → Registered env w a pubkey := by
  refine hrun.induct (I := fun h w => ∀ a pubkey, lastRegistered h a = some pubkey →
    Registered env w a pubkey) (fun a pubkey hlast => by cases hlast) ?_
  intro h w l w' _ ih hstep a pubkey hlast
  cases hstep with
  | @call tx data _ _ r _ hexec =>
    obtain ⟨_, rfl, ⟨hlen, hprefix⟩, -, rfl⟩ := registerBtcPubkey_ok hexec
    rw [lastRegistered] at hlast
    split_ifs at hlast with hsender
    · cases hlast
      subst hsender
      exact ⟨Function.update_self .., hlen, hprefix⟩
    · obtain ⟨hstored, hlen, hprefix⟩ := ih a pubkey hlast
      exact ⟨(Function.update_of_ne (Ne.symm hsender) ..).trans hstored, hlen, hprefix⟩
  | reverted => exact ih a pubkey hlast
  | elsewhere =>
    obtain ⟨hstored, hlen, hprefix⟩ := ih a pubkey hlast
    exact ⟨hstored, hlen, hprefix⟩

/-! ### What is read back -/

/-- The calldata of `queryCsvScriptHash` for the key of an account, as the bridge reads it. -/
def csvArgumentsOf (env : Env) (w : World σ) (a : Address) (csvBlocks : ℕ) :
    Except Revert (List UInt8 × ℕ) := do
  let pubkey ← w.pool.registeredPubkey a
  let calldata ← env.callData 45 [.bytes pubkey, .u64 csvBlocks]
  Bridge.csvArguments calldata

/-- The calldata of `queryEscrowScriptHash` for the keys of two accounts, as the bridge reads it. -/
def escrowArgumentsOf (env : Env) (w : World σ) (buyer writer : Address) (cltvBlock : ℕ) :
    Except Revert (List UInt8 × List UInt8 × ℕ) := do
  let buyerPub ← w.pool.registeredPubkey buyer
  let writerPub ← w.pool.registeredPubkey writer
  let calldata ← env.callData 78 [.bytes buyerPub, .bytes writerPub, .u64 cltvBlock]
  Bridge.escrowArguments calldata

/-- A registered key is given back by the getters and reaches the bridge as it was registered. -/
structure RoundTrips (env : Env) (w : World σ) (h : Lts.History (World σ) (Label (List UInt8)))
    (a : Address) (pubkey : List UInt8) : Prop where
  internal : w.pool.registeredPubkey a = .ok pubkey
  view : (getRegisteredPubkey env a.val w).map (fun reply => buffer 33 reply.1) = .ok pubkey
  csv : ∀ n, 0 < n → n < u64Size → csvArgumentsOf env w a n = .ok (pubkey, n)
  escrow : ∀ b pubkey' n, lastRegistered h b = some pubkey' → 0 < n → n < u64Size →
    escrowArgumentsOf env w a b n = .ok (pubkey, pubkey', n)

/-- The slot of one word keeps the first 32 bytes of a key. -/
lemma storageWord_pubkey (hlen : pubkey.length = 33) : storageWord pubkey = pubkey.take 32 := by
  rw [storageWord, List.take_append_of_le_length (by omega)]

lemma Registered.pubkeys_eq (hreg : Registered env w a pubkey) (hslot : env.slot = storageWord) :
    w.pool.pubkeys a = pubkey.take 32 := by
  rw [hreg.stored, hslot, storageWord_pubkey hreg.length]

/-- `getRegisteredPubkeyInternal` gives the first 32 bytes of the key. -/
lemma Registered.internal (hreg : Registered env w a pubkey) (hslot : env.slot = storageWord) :
    w.pool.registeredPubkey a = .ok (pubkey.take 32) := by
  have hdata := hreg.pubkeys_eq hslot
  have hnonzero : ∃ b ∈ w.pool.pubkeys a, b ≠ 0 := by
    obtain ⟨b, rest, rfl⟩ := List.exists_cons_of_length_eq_add_one hreg.length
    refine ⟨b, ?_, ?_⟩
    · rw [hdata]
      exact List.mem_cons_self
    · rintro rfl
      exact absurd hreg.compressed (by simp)
  rw [PoolStorage.registeredPubkey, require_of hnonzero, hdata, ok_bind, List.take_take]
  rfl

/-- `getRegisteredPubkey` gives them too, with a zero where the last byte of the key was. -/
lemma Registered.view (hreg : Registered env w a pubkey) (hslot : env.slot = storageWord) :
    (getRegisteredPubkey env a.val w).map (fun reply => buffer 33 reply.1)
      = .ok (pubkey.take 32 ++ [0]) := by
  have hlen : (pubkey.take 32).length = 32 := by simp [hreg.length]
  have hne : w.pool.pubkeys a ≠ [] := by
    rw [hreg.pubkeys_eq hslot]
    exact List.ne_nil_of_length_eq_add_one hlen
  have hdata : (w.pool.pubkeyAt a).take 33 = pubkey.take 32 := by
    rw [PoolStorage.pubkeyAt, if_neg hne, hreg.pubkeys_eq hslot, List.take_take]
    rfl
  have hread : readAddress a.val = .ok (a, []) := by
    simpa [Field.encode] using readAddress_encode a []
  have hfill : env.fill 33 (fieldsWidth [.bytes (pubkey.take 32)]) = .ok () :=
    fill_of_le (by simp [Field.width, hlen])
  rw [getRegisteredPubkey, hread, ok_bind]
  dsimp only
  rw [hdata, World.respond, hfill]
  simp [buffer, Field.encode, Field.width, hlen, Except.map]

/-- The bridge reads a key one byte longer than it was sent, and the number one byte later. -/
lemma csvArguments_shifted {p : List UInt8} (hlen : p.length = 32) (n : ℕ) :
    Bridge.csvArguments (buffer 41 [.bytes p, .u64 n])
      = .ok (p ++ [UInt8.ofNat (n / 256 ^ 7 % 256)], n % 256 ^ 7 * 256) := by
  have hbuffer : buffer 41 [.bytes p, .u64 n]
      = (p ++ [UInt8.ofNat (n / 256 ^ 7 % 256)]) ++ ((BigEndian.beBytes 7 n ++ [0]) ++ []) := by
    simp [buffer, Field.encode, Field.width, hlen, BigEndian.beBytes]
  have hkey : (p ++ [UInt8.ofNat (n / 256 ^ 7 % 256)]).length = 33 := by simp [hlen]
  have hnumber : (BigEndian.beBytes 7 n ++ [0]).length = 8 := by simp
  rw [hbuffer, Bridge.csvArguments, readBytes_append hkey, ok_bind]
  dsimp only
  rw [readU64, readBytes_append hnumber]
  simp [BigEndian.ofBytes_append_singleton, BigEndian.ofBytes_beBytes]

/-- The second key starts a byte late and takes two bytes of the number. -/
lemma escrowArguments_shifted {p q : List UInt8} (hp : p.length = 32) (hq : q.length = 32)
    (n : ℕ) : ∃ buyerPub writerPub,
      Bridge.escrowArguments (buffer 74 [.bytes p, .bytes q, .u64 n])
        = .ok (buyerPub, writerPub, n % 256 ^ 6 * 65536) := by
  obtain ⟨b, q', rfl⟩ := List.exists_cons_of_length_eq_add_one hq
  have hq' : q'.length = 31 := by simpa using hq
  have hbuffer : buffer 74 [.bytes p, .bytes (b :: q'), .u64 n] = (p ++ [b]) ++
      ((q' ++ [UInt8.ofNat (n / 256 ^ 7 % 256), UInt8.ofNat (n / 256 ^ 6 % 256)]) ++
        ((BigEndian.beBytes 6 n ++ [0] ++ [0]) ++ [])) := by
    simp [buffer, Field.encode, Field.width, hp, hq', BigEndian.beBytes]
  refine ⟨p ++ [b], q' ++ [UInt8.ofNat (n / 256 ^ 7 % 256), UInt8.ofNat (n / 256 ^ 6 % 256)], ?_⟩
  rw [hbuffer, Bridge.escrowArguments, readBytes_append (by simp [hp]), ok_bind]
  dsimp only
  rw [readBytes_append (by simp [hq']), ok_bind]
  dsimp only
  have hnumber : BigEndian.ofBytes (BigEndian.beBytes 6 n ++ [0] ++ [0])
      = n % 256 ^ 6 * 65536 := by
    rw [BigEndian.ofBytes_append_singleton, BigEndian.ofBytes_append_singleton,
      BigEndian.ofBytes_beBytes]
    show (n % 256 ^ 6 * 256 + 0) * 256 + 0 = n % 256 ^ 6 * 65536
    omega
  rw [readU64, readBytes_append (by simp), ok_bind]
  dsimp only
  rw [hnumber]
  rfl

/-- The bridge never reads the key and the number that were meant. -/
lemma Registered.csv_ne (hreg : Registered env w a pubkey) (hslot : env.slot = storageWord)
    {n : ℕ} (hpos : 0 < n) (hsize : n < u64Size) : csvArgumentsOf env w a n ≠ .ok (pubkey, n) := by
  have hlen : (pubkey.take 32).length = 32 := by simp [hreg.length]
  have hcalldata : env.callData 45 [.bytes (pubkey.take 32), .u64 n]
      = .ok (buffer 41 [.bytes (pubkey.take 32), .u64 n]) :=
    callData_eq_ok.mpr ⟨.inr (by simp [Field.width, hlen]), rfl⟩
  rw [csvArgumentsOf, hreg.internal hslot, ok_bind, hcalldata, ok_bind, csvArguments_shifted hlen]
  intro heq
  have hnumber : n % 256 ^ 7 * 256 = n := (Prod.mk.inj (Except.ok.inj heq)).2
  simp only [u64Size] at hsize
  omega

lemma Registered.escrow_ne {b : Address} {pubkey' : List UInt8} (hreg : Registered env w a pubkey)
    (hreg' : Registered env w b pubkey') (hslot : env.slot = storageWord) {n : ℕ} (hpos : 0 < n)
    (hsize : n < u64Size) : escrowArgumentsOf env w a b n ≠ .ok (pubkey, pubkey', n) := by
  have hlen : (pubkey.take 32).length = 32 := by simp [hreg.length]
  have hlen' : (pubkey'.take 32).length = 32 := by simp [hreg'.length]
  have hcalldata : env.callData 78 [.bytes (pubkey.take 32), .bytes (pubkey'.take 32), .u64 n]
      = .ok (buffer 74 [.bytes (pubkey.take 32), .bytes (pubkey'.take 32), .u64 n]) :=
    callData_eq_ok.mpr ⟨.inr (by simp [Field.width, hlen, hlen']), rfl⟩
  obtain ⟨_, _, hread⟩ := escrowArguments_shifted hlen hlen' n
  rw [escrowArgumentsOf, hreg.internal hslot, ok_bind, hreg'.internal hslot, ok_bind, hcalldata,
    ok_bind, hread]
  intro heq
  have hnumber : n % 256 ^ 6 * 65536 = n := (Prod.mk.inj (Prod.mk.inj (Except.ok.inj heq)).2).2
  simp only [u64Size] at hsize
  omega

/-- No registered key comes back whole: the getters give its first 32 bytes (one of them with a
zero after them), and the bridge reads other arguments than were meant. -/
theorem registeredPubkey_cut (hslot : env.slot = storageWord)
    (hrun : Lts.Run (Step env others (registerBtcPubkey env)) w₀ h w)
    (hlast : lastRegistered h a = some pubkey) :
    ¬ RoundTrips env w h a pubkey ∧
      w.pool.registeredPubkey a = .ok (pubkey.take 32) ∧ pubkey.length = 33 ∧
      (getRegisteredPubkey env a.val w).map (fun reply => buffer 33 reply.1)
        = .ok (pubkey.take 32 ++ [0]) ∧
      (∀ n, 0 < n → n < u64Size → csvArgumentsOf env w a n ≠ .ok (pubkey, n)) ∧
      ∀ b pubkey' n, lastRegistered h b = some pubkey' → 0 < n → n < u64Size →
        escrowArgumentsOf env w a b n ≠ .ok (pubkey, pubkey', n) := by
  have hreg := registered_of_run hrun a pubkey hlast
  refine ⟨fun htrips => ?_, hreg.internal hslot, hreg.length, hreg.view hslot,
    fun n hpos hsize => hreg.csv_ne hslot hpos hsize,
    fun b pubkey' n hlast' => hreg.escrow_ne (registered_of_run hrun b pubkey' hlast') hslot⟩
  have hwhole : pubkey.take 32 = pubkey :=
    Except.ok.inj ((hreg.internal hslot).symm.trans htrips.internal)
  have hlen := congrArg List.length hwhole
  simp [hreg.length] at hlen

end

/-! ### A key registered and read back -/

namespace Testnet

/-- The chain of `env`, with slots of one word. -/
def wordEnv : Env := { Testnet.env .fixed fun _ => Bytes32.zero with slot := storageWord }

/-- The key `0x02 11..11`. -/
def pubkey : List UInt8 := 0x02 :: List.replicate 32 0x11

/-- Account 10 has registered it. -/
def registered : World Unit :=
  Testnet.next (registerBtcPubkey wordEnv) (Testnet.world ()) (Testnet.tx 10 100) pubkey

lemma run_registered (others : Ledger → Ledger → Prop) :
    Lts.Run (Step wordEnv others (registerBtcPubkey wordEnv)) (Testnet.world ())
      [(.call (Testnet.tx 10 100) pubkey [.boolean true], registered)] registered :=
  Lts.Run.nil.cons (.call ⟨by decide, by decide⟩ (Testnet.exec_next (by decide)))

/-- Registered by account 10, the key is 32 bytes when it is read. -/
theorem pubkey_cut :
    Lts.Run (Step wordEnv (fun _ _ => True) (registerBtcPubkey wordEnv)) (Testnet.world ())
        [(.call (Testnet.tx 10 100) pubkey [.boolean true], registered)] registered ∧
      registered.pool.registeredPubkey (account 10) = .ok (0x02 :: List.replicate 31 0x11) ∧
      registered.pool.registeredPubkey (account 10) ≠ .ok pubkey :=
  ⟨run_registered _, by decide, by decide⟩

theorem registeredPubkey_cut_testnet :
    ¬ RoundTrips wordEnv registered
      [(.call (Testnet.tx 10 100) pubkey [.boolean true], registered)] (account 10) pubkey :=
  (registeredPubkey_cut rfl (run_registered fun _ _ => True) (by decide)).1

end Testnet

end Frogop
