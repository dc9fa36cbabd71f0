import Frogop.Indexer.Polling
import Frogop.Lib.Replay

/-!
# Runs that overlap

Nothing keeps two runs of the cron job apart: the second may read the cursor before the first has
committed, and the slower of two may store a cursor that is behind. The blocks are all taken, but
some more than once, and what they append is appended again. The options only suffer where a block
is replayed and the blocks after it are not: their updates overwrite (`options_replayed`).
-/

namespace Frogop.Indexer

/-! ### Updates of options -/

/-- What an update sets in a row; `none` leaves a column as it is. -/
@[ext]
structure OptionPatch where
  status : Option ℕ
  buyer : Option String
  updated : Option (ℕ × String)

namespace OptionPatch

instance : One OptionPatch := ⟨⟨none, none, none⟩⟩

instance : Mul OptionPatch :=
  ⟨fun p q => ⟨p.status <|> q.status, p.buyer <|> q.buyer, p.updated <|> q.updated⟩⟩

lemma one_def : (1 : OptionPatch) = ⟨none, none, none⟩ := rfl

lemma mul_def (p q : OptionPatch) :
    p * q = ⟨p.status <|> q.status, p.buyer <|> q.buyer, p.updated <|> q.updated⟩ := rfl

instance : Monoid OptionPatch where
  mul_assoc p q r := by simp [mul_def, Option.or_assoc]
  one_mul p := by simp [mul_def, one_def]
  mul_one p := by simp [mul_def, one_def]

instance : Replay.Overwrites OptionPatch where
  mul_mul_self p q := by
    obtain ⟨_ | _, _ | _, _ | _⟩ := p <;> obtain ⟨_ | _, _ | _, _ | _⟩ := q <;> rfl

instance : SMul OptionPatch OptionRow :=
  ⟨fun p o =>
    { o with
      status := p.status.getD o.status
      buyer := p.buyer <|> o.buyer
      updatedBlock := p.updated.map Prod.fst <|> o.updatedBlock
      updatedTx := p.updated.map Prod.snd <|> o.updatedTx }⟩

instance : MulAction OptionPatch OptionRow where
  one_smul o := rfl
  mul_smul p q o := by
    obtain ⟨_ | _, _ | _, _ | _⟩ := p <;> obtain ⟨_ | _, _ | _, _ | _⟩ := q <;> rfl

end OptionPatch

/-- The primary key of `options`. -/
def OptionRow.key (o : OptionRow) : String × ℕ := (o.poolAddress, o.optionId)

/-- What a statement does to the options. -/
def Stmt.ops : Stmt → List (Replay.Op OptionRow (String × ℕ) OptionPatch)
  | insertOption o => [.insert o]
  | updateOptionStatus poolAddress optionId status buyer updatedBlock updatedTx =>
    [.update (poolAddress, optionId) ⟨some status, buyer, some (updatedBlock, updatedTx)⟩]
  | updateOptionBuyer poolAddress optionId newBuyer updatedBlock updatedTx =>
    [.update (poolAddress, optionId) ⟨none, some newBuyer, some (updatedBlock, updatedTx)⟩]
  | insertFeeEvent _ | insertOptionTransfer _ | insertSwapEvent _ | setLastIndexedBlock _ => []

lemma key_smul (p : OptionPatch) (o : OptionRow) : (p • o).key = o.key := rfl

lemma key_eq_iff {o : OptionRow} {poolAddress : String} {optionId : ℕ} :
    o.key = (poolAddress, optionId) ↔ o.HasKey poolAddress optionId := by
  simp only [OptionRow.key, Prod.mk.injEq, OptionRow.HasKey]

lemma options_exec (db : Database) (stmt : Stmt) :
    (stmt.exec db).options = Replay.exec OptionRow.key db.options stmt.ops := by
  cases stmt with
  | insertOption o =>
    have hkey : (∃ o' ∈ db.options, o'.key = o.key) ↔
        ∃ o' ∈ db.options, o'.HasKey o.poolAddress o.optionId := by
      simp only [OptionRow.key, Prod.mk.injEq, OptionRow.HasKey]
    simp only [Stmt.exec, Stmt.ops, Replay.exec, List.foldl_cons, List.foldl_nil, Replay.Op.exec,
      hkey]
    split_ifs <;> rfl
  | updateOptionStatus poolAddress optionId status buyer =>
    refine List.map_congr_left fun o _ => ?_
    simp only [key_eq_iff]
    rfl
  | updateOptionBuyer poolAddress optionId =>
    refine List.map_congr_left fun o _ => ?_
    simp only [key_eq_iff]
    rfl
  | _ => rfl

lemma options_batch (db : Database) (stmts : List Stmt) :
    (db.batch stmts).options = Replay.exec OptionRow.key db.options (stmts.flatMap Stmt.ops) := by
  induction stmts generalizing db with
  | nil => rfl
  | cons stmt stmts ih =>
    rw [List.flatMap_cons, Replay.exec_append, ← options_exec, ← ih]
    rfl

/-! ### Commits -/

/-- A run that commits finds the cursor as it has read it. -/
def Fresh (s : PollState) (l : PollLabel) : Prop := Cursor.Fresh s.cursor l.cursor

/-- A run that commits has read no cursor beyond the stored one. -/
def Joined (s : PollState) (l : PollLabel) : Prop := Cursor.Joined s.cursor l.cursor

/-- Runs that leave the options as one run does: a block has the same statements whichever run takes
it, no run leaves a gap behind the cursor, and the blocks insert an option before they update it. -/
structure Replayable (S : ℕ → List Stmt) (s : PollState) (h : Lts.History PollState PollLabel) :
    Prop where
  stmts_eq : ∀ v ∈ visits s h, v.stmts = S v.block
  joined : Lts.Along (fun s l _ => Joined s l) s h
  inserted : ∀ n, Replay.Grounded OptionRow.key s.db.options
    (Replay.entries (fun n => (S n).flatMap Stmt.ops) s.db.getLastIndexedBlock n)

section

variable {S : ℕ → List Stmt} {s t u : PollState} {h : Lts.History PollState PollLabel}
  {l : PollLabel}

lemma PollStep.cursor_le_of_fresh (hstep : PollStep s l t) (hfresh : Fresh s l) :
    s.db.getLastIndexedBlock ≤ t.db.getLastIndexedBlock := by
  cases hstep with
  | start | abort | prune => exact le_rfl
  | @commit db rs rs' run stmts h =>
    obtain ⟨hlt, -, rfl⟩ := prepare_ok h
    have hread : run.lastIndexed = db.getLastIndexedBlock := hfresh
    rw [getLastIndexedBlock_batch]
    exact hread.ge.trans hlt.le

lemma ops_visits (hstmts : ∀ v ∈ visits s h, v.stmts = S v.block) :
    ((visits s h).flatMap Visit.stmts).flatMap Stmt.ops
      = ((visits s h).map Visit.block).flatMap fun n => (S n).flatMap Stmt.ops := by
  rw [List.flatMap_assoc, List.flatMap_map]
  exact List.flatMap_congr fun v hv => by rw [hstmts v hv]

/-- As long as the runs leave no gap, the options are those of one run whenever the cursor is at its
highest. -/
lemma options_replayed (hrun : Lts.Run PollStep s h t) (hstart : s.running = [])
    (hreplay : Replayable S s h)
    (htop : ∀ p ∈ h, p.2.db.getLastIndexedBlock ≤ t.db.getLastIndexedBlock) :
    t.db.options = (s.db.batch ((List.range' (s.db.getLastIndexedBlock + 1)
      (t.db.getLastIndexedBlock - s.db.getLastIndexedBlock)).flatMap S)).options := by
  have hcursor := cursor_of_run hrun
  have hidle : s.cursor.running = [] := by rw [PollState.cursor, hstart, List.map_nil]
  have hjoined := (Lts.along_map (f := PollState.cursor) (g := PollLabel.cursor)
    (fun s l _ => Cursor.Joined s l) s h).mpr hreplay.joined
  have hhighest : t.cursor.cursor
      = Cursor.highest s.cursor (Lts.mapHistory PollState.cursor PollLabel.cursor h) := by
    refine Cursor.eq_highest hcursor (Cursor.covered hidle hcursor).1.1 fun p hp => ?_
    obtain ⟨q, hq, rfl⟩ := List.mem_map.mp hp
    exact htop q hq
  calc t.db.options
      = Replay.exec OptionRow.key s.db.options
          (((visits s h).flatMap Visit.stmts).flatMap Stmt.ops) := by
        rw [← options_batch]
        exact (pruned_of_run hrun).options
    _ = Replay.exec OptionRow.key s.db.options ((Cursor.taken s.cursor
          (Lts.mapHistory PollState.cursor PollLabel.cursor h)).flatMap
            fun n => (S n).flatMap Stmt.ops) := by
        rw [ops_visits hreplay.stmts_eq, map_block_visits]
    _ = Replay.exec OptionRow.key s.db.options
          (Replay.entries (fun n => (S n).flatMap Stmt.ops) s.db.getLastIndexedBlock
            t.db.getLastIndexedBlock) :=
        Replay.exec_taken key_smul hidle hcursor hjoined hreplay.inserted hhighest
    _ = _ := by rw [options_batch, List.flatMap_assoc, Replay.entries]

end

/-! ### Runs on the chain of three blocks -/

namespace Testnet

variable {db : Database} {n tip : ℕ}

lemma options_committed : (committed n tip db).options
    = (db.batch ((List.range' (n + 1) (tip - n)).flatMap stmts)).options := by
  rw [committed, batch_append]
  rfl

lemma step_start (rs : List Running) (tip : ℕ) (hn : db.getLastIndexedBlock = n) :
    PollStep ⟨db, rs⟩ (.start (poll tip)) ⟨db, ⟨poll tip, n⟩ :: rs⟩ := by
  subst hn
  exact .start db rs (poll tip)

lemma step_commit (rs rs' : List Running) (hn : n < tip) (htip : tip ≤ n + 20) :
    PollStep ⟨db, rs ++ ⟨poll tip, n⟩ :: rs'⟩ (.commit ⟨poll tip, n⟩)
      ⟨committed n tip db, rs ++ rs'⟩ := .commit (prepare_poll hn htip)

/-- The blocks of the chain insert the option before they update it. -/
lemma inserted (n : ℕ) : Replay.Grounded OptionRow.key Database.empty.options
    (Replay.entries (fun n => (stmts n).flatMap Stmt.ops) 0 n) := by
  have hthree : Replay.Grounded OptionRow.key Database.empty.options
      (Replay.entries (fun n => (stmts n).flatMap Stmt.ops) 0 3) :=
    ⟨⟨_, List.mem_cons_self, rfl⟩, ⟨_, List.mem_cons_self, rfl⟩, trivial⟩
  rcases le_total n 3 with hn | hn
  · rw [← Replay.entries_append n.zero_le hn, Replay.grounded_append] at hthree
    exact hthree.1
  · have hbeyond : Replay.entries (fun n => (stmts n).flatMap Stmt.ops) 3 n = [] := by
      refine List.flatMap_eq_nil_iff.mpr fun m hm => ?_
      obtain ⟨k, rfl⟩ := Nat.exists_eq_add_of_le' (List.mem_range'_1.mp hm).1
      rfl
    rw [← Replay.entries_append (Nat.zero_le 3) hn, hbeyond, List.append_nil]
    exact hthree

lemma poll_honest (tip : ℕ) : (poll tip).Honest chain ∧ (poll tip).tracking = tracking :=
  ⟨fun _ _ hblock => (BlockReply.block.inj hblock).symm, rfl⟩

lemma stmts_of_mem_visits : ∀ v ∈ (poll tip).visits n, v.stmts = stmts v.block := by
  intro v hv
  obtain ⟨m, -, rfl⟩ := List.mem_map.mp hv
  exact decodeBlock_chain m

end Testnet

section

variable {s t : PollState} {h : Lts.History PollState PollLabel}

/-- Any number of runs that overlap in any way: no block up to the cursor is missing, and the tables
are those of one batch for the blocks that were taken, in the order of the commits. No block
is taken twice exactly when every run finds the cursor as it has read it; the blocks are then
taken in order and the cursor never decreases. The options survive more than that. -/
theorem overlapping_polls (hrun : Lts.Run PollStep s h t) (hstart : s.running = []) :
    (s.db.getLastIndexedBlock ≤ t.db.getLastIndexedBlock ∧
      ∀ n, s.db.getLastIndexedBlock < n → n ≤ t.db.getLastIndexedBlock →
        ∃ v ∈ visits s h, v.block = n) ∧
    (s.db.batch ((visits s h).flatMap Visit.stmts)).PrunedFrom t.db ∧
    (((visits s h).map Visit.block).Nodup ↔ Lts.Along (fun s l _ => Fresh s l) s h) ∧
    (Lts.Along (fun s l _ => Fresh s l) s h →
      (visits s h).map Visit.block = List.range' (s.db.getLastIndexedBlock + 1)
          (t.db.getLastIndexedBlock - s.db.getLastIndexedBlock) ∧
        Lts.Along (fun s _ t => s.db.getLastIndexedBlock ≤ t.db.getLastIndexedBlock) s h) ∧
    (∀ S, Replayable S s h →
      (∀ p ∈ h, p.2.db.getLastIndexedBlock ≤ t.db.getLastIndexedBlock) →
      t.db.options = (s.db.batch ((List.range' (s.db.getLastIndexedBlock + 1)
        (t.db.getLastIndexedBlock - s.db.getLastIndexedBlock)).flatMap S)).options) := by
  have hcursor := cursor_of_run hrun
  have hidle : s.cursor.running = [] := by rw [PollState.cursor, hstart, List.map_nil]
  have hfresh_iff := Lts.along_map (f := PollState.cursor) (g := PollLabel.cursor)
    (fun s l _ => Cursor.Fresh s l) s h
  obtain ⟨hle, hcovered⟩ := (Cursor.covered hidle hcursor).1
  refine ⟨⟨hle, fun n hbefore hn => ?_⟩, pruned_of_run hrun, ?_, fun hfresh => ⟨?_, ?_⟩,
    fun S hreplay htop => options_replayed hrun hstart hreplay htop⟩
  · have htaken := hcovered n hbefore hn
    rw [← map_block_visits] at htaken
    exact List.mem_map.mp htaken
  · rw [map_block_visits, Cursor.nodup_taken_iff hidle hcursor, hfresh_iff]
    rfl
  · rw [map_block_visits, (Cursor.taken_of_fresh hidle hcursor (hfresh_iff.mpr hfresh)).1]
    rfl
  · exact hrun.along_imp hfresh fun _ _ _ hstep => hstep.cursor_le_of_fresh

end

/-- A run that has been overtaken replays two blocks, and the next run the third. -/
theorem overlapping_polls_caughtUp :
    ∃ h t, Lts.Run PollStep ⟨Database.empty, []⟩ h t ∧ t.db.getLastIndexedBlock = 3 ∧
      ¬ ((visits ⟨Database.empty, []⟩ h).map Visit.block).Nodup ∧
      t.db.options = (pollNewBlocks (Testnet.poll 3) true false Database.empty).options := by
  have hempty : Database.empty.getLastIndexedBlock = 0 := rfl
  have hrun : Lts.Run PollStep ⟨Database.empty, []⟩ _ _ :=
    (((((Lts.Run.nil.cons (Testnet.step_start _ 2 hempty)).cons
      (Testnet.step_start _ 3 hempty)).cons
      (Testnet.step_commit [] _ (by decide) (by decide))).cons
      (Testnet.step_commit [] _ (by decide) (by decide))).cons
      (Testnet.step_start _ 3 Testnet.cursor_committed)).cons
      (Testnet.step_commit [] _ (by decide) (by decide))
  rw [Testnet.pollNewBlocks_poll hempty (by decide) (by decide)]
  refine ⟨_, _, hrun, Testnet.cursor_committed, by decide, ?_⟩
  have honce := (overlapping_polls hrun rfl).2.2.2.2 Testnet.stmts ⟨?_, ?_, Testnet.inserted⟩ ?_
  · apply honce.trans
    rw [Testnet.cursor_committed]
    exact Testnet.options_committed.symm
  · intro v hv
    simp only [visits, Lts.collect, PollLabel.visits, List.append_nil, List.nil_append,
      List.mem_append] at hv
    rcases hv with (hv | hv) | hv <;> exact Testnet.stmts_of_mem_visits v hv
  · refine ⟨⟨⟨⟨⟨⟨trivial, trivial⟩, trivial⟩, ?_⟩, ?_⟩, trivial⟩, ?_⟩
    · exact Nat.le_refl 0
    · exact Nat.zero_le _
    · show 2 ≤ (Testnet.committed 0 2 (Testnet.committed 0 3 Database.empty)).getLastIndexedBlock
      exact Testnet.cursor_committed.ge
  · simp only [List.forall_mem_cons, Testnet.cursor_committed, hempty]
    decide

/-- A run that has been overtaken stores its cursor below the one that is stored, while another run
is already on its way from there. The fee of block 2 is in the ledger twice, and an option that was
exercised stays bought although the cursor is at the tip. -/
theorem overlapping_polls_regress :
    ∃ h t, Lts.Run PollStep ⟨Database.empty, []⟩ h t ∧
      (∀ poll, .start poll ∈ h.map Prod.fst →
        poll.Honest Testnet.chain ∧ poll.tracking = Testnet.tracking) ∧
      ¬ Lts.Along (fun s _ t => s.db.getLastIndexedBlock ≤ t.db.getLastIndexedBlock)
        ⟨Database.empty, []⟩ h ∧
      t.db.getLastIndexedBlock = 4 ∧
      (t.db.feeEvents.filter fun e => e.blockNumber = 2).length = 2 ∧
      t.db.options.map OptionRow.status = [OptionStatus.PURCHASED] ∧
      ((pollNewBlocks (Testnet.poll 4) true false Database.empty).feeEvents.filter
        fun e => e.blockNumber = 2).length = 1 ∧
      (pollNewBlocks (Testnet.poll 4) true false Database.empty).options.map OptionRow.status
        = [OptionStatus.EXERCISED] := by
  have hempty : Database.empty.getLastIndexedBlock = 0 := rfl
  have hrun : Lts.Run PollStep ⟨Database.empty, []⟩ _ _ :=
    (((((Lts.Run.nil.cons (Testnet.step_start _ 2 hempty)).cons
      (Testnet.step_start _ 3 hempty)).cons
      (Testnet.step_commit [] _ (by decide) (by decide))).cons
      (Testnet.step_start _ 4 Testnet.cursor_committed)).cons
      (Testnet.step_commit [⟨Testnet.poll 4, 3⟩] _ (by decide) (by decide))).cons
      (Testnet.step_commit [] _ (by decide) (by decide))
  rw [Testnet.pollNewBlocks_poll hempty (by decide) (by decide)]
  refine ⟨_, _, hrun, ?_, ?_, Testnet.cursor_committed, ?_, ?_, ?_, ?_⟩
  · intro p hp
    simp only [List.map_cons, List.map_nil, List.mem_cons, PollLabel.start.injEq, reduceCtorEq,
      List.not_mem_nil, false_or, or_false] at hp
    rcases hp with rfl | rfl | rfl <;> exact Testnet.poll_honest _
  · rintro ⟨⟨-, hmono⟩, -⟩
    have hdrop : (Testnet.committed 0 3 Database.empty).getLastIndexedBlock
        ≤ (Testnet.committed 0 2 (Testnet.committed 0 3 Database.empty)).getLastIndexedBlock :=
      hmono
    rw [Testnet.cursor_committed, Testnet.cursor_committed] at hdrop
    exact absurd hdrop (by decide)
  · decide
  · decide
  · decide
  · decide

end Frogop.Indexer
