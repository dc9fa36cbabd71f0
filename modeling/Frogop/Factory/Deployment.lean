import Frogop.Factory.Registry

/-!
# What the factory deploys pools with

`createPool` writes two bytes of token decimals after the three addresses; `onDeployment` reads a
grace period of eight bytes there. No pool is ever deployed.
-/

namespace Frogop.Factory

open Outcome

/-- The init calldata is accepted, and the deployed pool has the tokens and the treasury. -/
def DeploysPool (env : Env) (underlying premiumToken treasury : Address)
    (underlyingDecimals premiumDecimals : ℕ) : Prop :=
  ∃ calldata pool,
    initCalldata env underlying premiumToken treasury underlyingDecimals premiumDecimals
        = .ok calldata ∧
      onDeploymentCalldata calldata = .ok pool ∧ pool.underlying = underlying ∧
      pool.premiumToken = premiumToken ∧ pool.feeRecipient = treasury

/-- A deployment from the template runs `onDeployment` of the pool, and fails when that reverts. -/
def RunsOnDeployment (tx : FactoryTx) (template : Address) : Prop :=
  ∀ salt calldata e, onDeploymentCalldata calldata = .error e →
    ∃ e', tx.deployContractFromExisting template salt calldata = .error e'

section

variable {env : Env} {tx : FactoryTx} {s : FactoryStorage}
  {underlying premiumToken treasury : Address} {underlyingDecimals premiumDecimals : ℕ}

lemma initCalldata_eq (env : Env) (underlying premiumToken treasury : Address)
    (underlyingDecimals premiumDecimals : ℕ) :
    initCalldata env underlying premiumToken treasury underlyingDecimals premiumDecimals
      = .ok (Field.encode (.address underlying) ++
      (Field.encode (.address premiumToken) ++ (Field.encode (.address treasury) ++
        [UInt8.ofNat (underlyingDecimals % 256), UInt8.ofNat (premiumDecimals % 256)]))) := by
  have hfits : env.fill 98 (fieldsWidth [.address underlying, .address premiumToken,
      .address treasury, .u8 underlyingDecimals, .u8 premiumDecimals]) = .ok () :=
    fill_of_le (by simp [Field.width])
  rw [initCalldata, hfits]
  simp [buffer, Field.encode, Field.width, BigEndian.beBytes]

/-- Two bytes are left where the grace period is read. -/
lemma onDeploymentCalldata_init (underlying premiumToken treasury : Address) {tail : List UInt8}
    (htail : tail.length < 8) : onDeploymentCalldata (Field.encode (.address underlying) ++
      (Field.encode (.address premiumToken) ++ (Field.encode (.address treasury) ++ tail)))
      = .error .outOfCalldata := by
  have hshort : readU64 tail = .error .outOfCalldata := by
    rw [readU64, readBytes, require_of_not (not_le.mpr htail)]
    rfl
  rw [onDeploymentCalldata, readAddress_encode, ok_bind]
  dsimp only
  rw [readAddress_encode, ok_bind]
  dsimp only
  rw [readAddress_encode, ok_bind]
  dsimp only
  rw [hshort]
  rfl

/-- Whatever it is called with, `createPool` builds calldata that `onDeployment` reads past the end
of, and fails. -/
theorem createPool_never_deploys (hruns : RunsOnDeployment tx s.poolTemplate) :
    ¬ DeploysPool env underlying premiumToken s.treasury underlyingDecimals premiumDecimals ∧
      (∃ calldata, initCalldata env underlying premiumToken s.treasury underlyingDecimals
          premiumDecimals = .ok calldata ∧
        onDeploymentCalldata calldata = .error .outOfCalldata) ∧
      ∀ reply, createPool env tx underlying premiumToken underlyingDecimals premiumDecimals s
        ≠ .ok reply := by
  have hinit := initCalldata_eq env underlying premiumToken s.treasury underlyingDecimals
    premiumDecimals
  have hshort : [UInt8.ofNat (underlyingDecimals % 256),
      UInt8.ofNat (premiumDecimals % 256)].length < 8 := by simp
  have hrefused := onDeploymentCalldata_init underlying premiumToken s.treasury hshort
  refine ⟨?_, ⟨_, hinit, hrefused⟩, fun reply h => ?_⟩
  · rintro ⟨calldata, pool, hcalldata, hdeploy, -⟩
    cases hinit.symm.trans hcalldata
    cases hrefused.symm.trans hdeploy
  · simp only [createPool, bind_eq_ok, hinit, Except.ok.injEq] at h
    obtain ⟨-, -, -, -, -, -, -, -, -, -, -, -, _, rfl, pool, hdeploy, -⟩ := h
    obtain ⟨e, he⟩ := hruns (generateSalt env underlying premiumToken) _ _ hrefused
    cases he.symm.trans hdeploy

end

/-! ### A pool that is not created -/

namespace Testnet

/-- A transaction on a chain that deploys at account 9 what `onDeployment` accepts. -/
def deployer : FactoryTx where
  sender := account 11
  deployContractFromExisting := fun _ _ calldata =>
    (onDeploymentCalldata calldata).map fun _ => account 9
  deployed_ne_zero := fun {_ _ calldata a} h => by
    cases hdeploy : onDeploymentCalldata calldata with
    | error e =>
      rw [hdeploy] at h
      cases h
    | ok pool =>
      rw [hdeploy] at h
      obtain rfl : account 9 = a := Except.ok.inj h
      decide

/-- A factory with template 7 and treasury 8. -/
def ready : FactoryStorage := { deployed with poolTemplate := account 7, treasury := account 8 }

/-- The tokens 2 and 3 pass every check of `createPool`; the calldata is refused. -/
theorem createPool_refused :
    (initCalldata env (account 2) (account 3) ready.treasury 18 18 >>= onDeploymentCalldata).map
        PoolStorage.gracePeriod = .error .outOfCalldata ∧
      (createPool env deployer (account 2) (account 3) 18 18 ready).map Prod.fst
        = .error .outOfCalldata :=
  ⟨by decide +kernel, by decide +kernel⟩

theorem createPool_never_deploys_ready :
    ¬ DeploysPool env (account 2) (account 3) ready.treasury 18 18 := by
  have hruns : RunsOnDeployment deployer ready.poolTemplate := by
    intro salt calldata e he
    have hmap : (onDeploymentCalldata calldata).map (fun _ => account 9) = .error e := by
      rw [he]
      rfl
    exact ⟨e, hmap⟩
  exact (createPool_never_deploys hruns).1

end Testnet

end Frogop.Factory
