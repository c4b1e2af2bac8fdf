import AshlrHub.Fleet.SharedStoreRun

namespace AshlrHub.Fleet

open Js Authority Lib

/-! What the edits keep. -/

variable {queue after : SharedFleetQueue} {change : QueueEdit} {edits : List QueueEdit}

namespace QueueEdit

def creates : QueueEdit → List QueueClaimRef
  | .created ref => [ref]
  | _ => []

def completes : QueueEdit → List CompleteCall
  | .completed call => [call]
  | _ => []

def clears : QueueEdit → List QueueClaimRef
  | .completed call => [call.ref]
  | .settled ref => [ref]
  | _ => []

end QueueEdit

theorem lookup_setClaim (queue : SharedFleetQueue) (itemId other : JsString) (claim : ItemClaim) :
    (setClaim queue itemId claim).claims.lookup other =
      if other = itemId then some claim else queue.claims.lookup other := by
  split_ifs with same
  · rw [same]
    exact AList.lookup_insert _
  · exact AList.lookup_insert_ne same

theorem lookup_deleteClaim (queue : SharedFleetQueue) (itemId other : JsString) :
    (deleteClaim queue itemId).claims.lookup other =
      if other = itemId then none else queue.claims.lookup other := by
  split_ifs with same
  · rw [same]
    exact AList.lookup_erase _ _
  · exact AList.lookup_erase_ne same

variable {ref : QueueClaimRef}

theorem claimMatches_lookup (matching : claimMatches queue ref = true) :
    ∃ claim, queue.claims.lookup ref.itemId = some claim ∧ claim.machineId = encodeOwner ref := by
  unfold claimMatches at matching
  rw [Bool.and_eq_true, Option.any_eq_true] at matching
  obtain ⟨claim, held, key⟩ := matching.2
  exact ⟨claim, held, of_decide_eq_true key⟩

def NextAbove (queue : SharedFleetQueue) (epoch : ℕ) : Prop :=
  ∃ fence, queue.fence = some fence ∧ epoch < fence.nextClaimEpoch

theorem NextAbove.step {epoch : ℕ} (above : NextAbove queue epoch)
    (step : EditStep queue change after) : NextAbove after epoch := by
  obtain ⟨fence, fenced, below⟩ := above
  cases step with
  | fenced unfenced =>
      rw [unfenced] at fenced
      cases fenced
  | created same =>
      cases same.symm.trans fenced
      exact ⟨_, rfl, Nat.lt_succ_of_lt below⟩
  | renewed | begun | released | completed | settled => exact ⟨fence, fenced, below⟩

def Keyed (queue : SharedFleetQueue) (itemId : JsString) (ref : QueueClaimRef) : Prop :=
  ∃ claim, queue.claims.lookup itemId = some claim ∧ claim.machineId = encodeOwner ref

variable {other : JsString}

variable {itemId : JsString}

theorem Keyed.of_setClaim {installed : QueueClaimRef} {leaseUntil : ℤ}
    (keyed : Keyed (setClaim queue itemId ⟨encodeOwner installed, leaseUntil⟩) other ref) :
    Keyed queue other ref ∨ other = itemId ∧ installed.epoch = ref.epoch := by
  obtain ⟨claim, held, key⟩ := keyed
  rw [lookup_setClaim] at held
  split_ifs at held with same
  · cases held
    exact .inr ⟨same, (encodeOwner_inj key).1⟩
  · exact .inl ⟨claim, held, key⟩

theorem Keyed.of_deleteClaim
    (keyed : Keyed (deleteClaim queue itemId) other ref) :
    Keyed queue other ref ∧ other ≠ itemId := by
  obtain ⟨claim, held, key⟩ := keyed
  rw [lookup_deleteClaim] at held
  split_ifs at held with same
  exact ⟨⟨claim, held, key⟩, same⟩

theorem Keyed.before (keyed : Keyed after itemId ref)
    (step : EditStep queue change after) :
    (∃ known, Keyed queue itemId known ∧ known.epoch = ref.epoch) ∨
      ∃ created ∈ change.creates, created.itemId = itemId ∧ created.epoch = ref.epoch := by
  have replaced {other installed : QueueClaimRef} {leaseUntil : ℤ}
      (matching : claimMatches queue other = true)
      (keyed : Keyed (setClaim queue other.itemId ⟨encodeOwner installed, leaseUntil⟩) itemId ref)
      (epoch : installed.epoch = other.epoch) :
      ∃ known, Keyed queue itemId known ∧ known.epoch = ref.epoch := by
    rcases keyed.of_setClaim with same | ⟨rfl, fresh⟩
    · exact ⟨ref, same, rfl⟩
    · exact ⟨other, claimMatches_lookup matching, epoch.symm.trans fresh⟩
  cases step with
  | fenced => exact .inl ⟨ref, keyed, rfl⟩
  | @created fence created now =>
      have keyed : Keyed (setClaim queue created.itemId ⟨encodeOwner created, created.leaseUntil⟩)
        itemId ref := keyed
      rcases keyed.of_setClaim with same | ⟨rfl, fresh⟩
      · exact .inl ⟨ref, same, rfl⟩
      · exact .inr ⟨created, List.mem_singleton_self _, rfl, fresh⟩
  | renewed matching | begun matching => exact .inl (replaced matching keyed rfl)
  | released | settled => exact .inl ⟨ref, keyed.of_deleteClaim.1, rfl⟩
  | completed =>
      have keyed := keyed.of_deleteClaim.1
      exact .inl ⟨ref, keyed, rfl⟩

/-! Epochs. -/

structure Issued (owners : List ModernClaimOwner) (queue : SharedFleetQueue)
    (created : List QueueClaimRef) (completed : List CompleteCall) : Prop where
  keys : ∀ {itemId ref}, Keyed queue itemId ref → NextAbove queue ref.epoch
  known : ∀ owner ∈ owners, NextAbove queue owner.epoch
  below : ∀ ref ∈ created, NextAbove queue ref.epoch
  fresh : ∀ owner ∈ owners, ∀ ref ∈ created, owner.epoch < ref.epoch
  increasing : created.Pairwise fun first second => first.epoch < second.epoch
  spent : ∀ call ∈ completed, NextAbove queue call.ref.epoch
  gone : ∀ call ∈ completed, ∀ {ref}, Keyed queue call.ref.itemId ref → ref.epoch ≠ call.ref.epoch
  once : completed.Pairwise fun first second =>
    ¬ (first.ref.itemId = second.ref.itemId ∧ first.ref.epoch = second.ref.epoch)

section

variable (step : EditStep queue change after)
include step

theorem created_above {epoch : ℕ}
    (created : ref ∈ change.creates) (above : NextAbove queue epoch) : epoch < ref.epoch := by
  obtain ⟨fence, fenced, below⟩ := above
  cases step with
  | created same _ epoch =>
      cases List.mem_singleton.mp created
      cases same.symm.trans fenced
      omega
  | fenced | renewed | begun | released | completed | settled => cases created

theorem created_below (created : ref ∈ change.creates) :
    NextAbove after ref.epoch := by
  cases step with
  | created _ _ epoch =>
      cases List.mem_singleton.mp created
      exact ⟨_, rfl, by dsimp only; omega⟩
  | fenced | renewed | begun | released | completed | settled => cases created

theorem completed_keyed {call : CompleteCall}
    (completed : call ∈ change.completes) :
    Keyed queue call.ref.itemId call.ref ∧ ∀ ref, ¬ Keyed after call.ref.itemId ref := by
  cases step with
  | completed matching =>
      cases List.mem_singleton.mp completed
      exact ⟨claimMatches_lookup matching, fun ref keyed => keyed.of_deleteClaim.2 rfl⟩
  | fenced | created | renewed | begun | released | settled => cases completed

end

theorem creates_pairwise (change : QueueEdit) :
    change.creates.Pairwise fun first second => first.epoch < second.epoch := by
  cases change with
  | created => exact List.pairwise_singleton _ _
  | _ => exact .nil

theorem completes_pairwise (change : QueueEdit) :
    change.completes.Pairwise fun first second =>
      ¬ (first.ref.itemId = second.ref.itemId ∧ first.ref.epoch = second.ref.epoch) := by
  cases change with
  | completed => exact List.pairwise_singleton _ _
  | _ => exact .nil

variable {owners : List ModernClaimOwner} {created : List QueueClaimRef}
  {completed : List CompleteCall}

theorem Issued.step (issued : Issued owners queue created completed)
    (step : EditStep queue change after) :
    Issued owners after (created ++ change.creates) (completed ++ change.completes) where
  keys keyed := by
    rcases keyed.before step with ⟨old, before, same⟩ | ⟨ref, creates, -, same⟩
    · exact same ▸ (issued.keys before).step step
    · exact same ▸ created_below step creates
  known owner member := (issued.known owner member).step step
  below ref member := by
    rcases List.mem_append.mp member with old | new
    · exact (issued.below ref old).step step
    · exact created_below step new
  fresh owner member ref created := by
    rcases List.mem_append.mp created with old | new
    · exact issued.fresh owner member ref old
    · exact created_above step new (issued.known owner member)
  increasing := by
    refine List.pairwise_append.mpr ⟨issued.increasing, creates_pairwise change, ?_⟩
    intro first old second new
    exact created_above step new (issued.below first old)
  spent call member := by
    rcases List.mem_append.mp member with old | new
    · exact (issued.spent call old).step step
    · exact (issued.keys (completed_keyed step new).1).step step
  gone call member ref keyed := by
    rcases List.mem_append.mp member with old | new
    · rcases keyed.before step with ⟨before, kept, same⟩ | ⟨made, creates, -, same⟩
      · exact same ▸ issued.gone call old kept
      · have above := created_above step creates (issued.spent call old)
        omega
    · exact absurd keyed ((completed_keyed step new).2 ref)
  once := by
    refine List.pairwise_append.mpr ⟨issued.once, completes_pairwise change, ?_⟩
    rintro first old second new ⟨sameItem, sameEpoch⟩
    have keyed := (completed_keyed step new).1
    rw [← sameItem] at keyed
    exact issued.gone first old keyed sameEpoch.symm

theorem Issued.run (issued : Issued owners queue created completed)
    (run : Run EditStep queue edits after) :
    Issued owners after (created ++ edits.flatMap QueueEdit.creates)
      (completed ++ edits.flatMap QueueEdit.completes) := by
  induction run with
  | nil =>
      rw [List.flatMap_nil, List.flatMap_nil, List.append_nil, List.append_nil]
      exact issued
  | snoc _ taken ih =>
      have next := ih.step taken
      rw [List.append_assoc, List.append_assoc] at next
      rwa [List.flatMap_append, List.flatMap_append, List.flatMap_singleton, List.flatMap_singleton]

/-! What a valid queue says of its claims. -/

variable {claim : ItemClaim}

theorem valid_claim (valid : validQueue queue = true)
    (held : queue.claims.lookup itemId = some claim) : validClaim itemId claim = true := by
  unfold validQueue at valid
  simp only [Bool.and_eq_true, List.all_eq_true] at valid
  obtain ⟨⟨⟨⟨_, claims⟩, _⟩, _⟩, _⟩ := valid
  exact claims ⟨itemId, claim⟩ (AList.mem_lookup_iff.mp held)

variable {owner : ModernClaimOwner}

theorem valid_owners (valid : validQueue queue = true) (member : owner ∈ queue.owners) :
    NextAbove queue owner.epoch := by
  unfold validQueue at valid
  rw [Bool.and_eq_true] at valid
  have fenced := valid.2
  unfold validFence at fenced
  cases spelled : queue.fence with
  | none =>
      rw [spelled] at fenced
      rw [of_decide_eq_true fenced] at member
      cases member
  | some fence =>
      rw [spelled] at fenced
      simp only [Bool.and_eq_true, List.all_eq_true, decide_eq_true_eq] at fenced
      exact ⟨fence, spelled, fenced.2 owner member⟩

theorem mem_owners (held : queue.claims.lookup itemId = some claim)
    (owned : claim.owner? = some owner) :
    owner ∈ queue.owners :=
  List.mem_filterMap.mpr ⟨⟨itemId, claim⟩, AList.mem_lookup_iff.mp held, owned⟩

theorem Issued.start (valid : validQueue queue = true) : Issued queue.owners queue [] [] where
  keys := by
    rintro itemId ref ⟨claim, held, key⟩
    obtain ⟨owner, owned, owns⟩ := owner?_encodeOwner (valid_claim valid held) key
    exact owns.epoch ▸ valid_owners valid (mem_owners held owned)
  known owner member := valid_owners valid member
  below := nofun
  fresh _ _ := nofun
  increasing := .nil
  spent := nofun
  gone := nofun
  once := .nil

/-! A generation that executes. -/

def Executes (queue : SharedFleetQueue) (itemId : JsString) (epoch : ℕ) (tokenHash : JsString) :
    Prop :=
  ∃ claim, queue.claims.lookup itemId = some claim ∧
    ((∃ owner, claim.owner? = some owner ∧ owner.phase = .executing ∧ owner.epoch = epoch ∧
      owner.tokenHash = tokenHash) ∨
    ∃ ref, claim.machineId = encodeOwner ref ∧ ref.phase = .executing ∧ ref.epoch = epoch ∧
      ownerTokenHash ref.ownerToken = tokenHash)

section

variable {itemId tokenHash : JsString} {epoch : ℕ}

theorem Executes.presents (executes : Executes queue ref.itemId epoch tokenHash)
    (matching : claimMatches queue ref = true) : Presents ref ref.itemId epoch tokenHash := by
  obtain ⟨claim, held, either⟩ := executes
  obtain ⟨other, same, key⟩ := claimMatches_lookup matching
  cases held.symm.trans same
  rcases either with ⟨owner, owned, phase, rfl, rfl⟩ | ⟨installed, spelled, phase, rfl, rfl⟩
  · have owns := owns_of_owner? owned key
    exact ⟨rfl, owns.epoch.symm, owns.phase.symm.trans phase, owns.tokenHash.symm⟩
  · obtain ⟨sameEpoch, samePhase, sameHash⟩ := encodeOwner_inj (key.symm.trans spelled)
    exact ⟨rfl, sameEpoch, samePhase.trans phase, sameHash⟩

variable {now : ℤ}

section

variable (executes : Executes queue itemId epoch tokenHash)
include executes

theorem Executes.not_claimable :
    claimable (queue.claims.lookup itemId) now = false := by
  obtain ⟨claim, held, either⟩ := executes
  rw [held, claimable, ← Bool.not_eq_true]
  intro free
  obtain ⟨owner, owned, claimed⟩ := Option.any_eq_true _ _ |>.mp free
  rw [Bool.and_eq_true, decide_eq_true_eq] at claimed
  have executing : owner.phase = .executing := by
    rcases either with ⟨other, same, phase, _⟩ | ⟨ref, key, phase, _⟩
    · cases owned.symm.trans same
      exact phase
    · exact (owns_of_owner? owned key).phase.trans phase
  rw [executing] at claimed
  cases claimed.1

theorem Executes.setClaim (apart : itemId ≠ other) :
    Executes (setClaim queue other claim) itemId epoch tokenHash := by
  obtain ⟨held, found, either⟩ := executes
  refine ⟨held, ?_, either⟩
  rw [lookup_setClaim, if_neg apart]
  exact found

theorem Executes.deleteClaim
    (apart : itemId ≠ other) : Executes (deleteClaim queue other) itemId epoch tokenHash := by
  obtain ⟨held, found, either⟩ := executes
  refine ⟨held, ?_, either⟩
  rw [lookup_deleteClaim, if_neg apart]
  exact found

theorem Executes.step (step : EditStep queue change after)
    (kept : ∀ ref ∈ change.clears, ¬ Presents ref itemId epoch tokenHash) :
    Executes after itemId epoch tokenHash ∧ ∀ ref ∈ change.creates, ref.itemId ≠ itemId := by
  cases step with
  | fenced => exact ⟨executes, nofun⟩
  | @created _ ref now _ free =>
      have apart : itemId ≠ ref.itemId := by
        rintro rfl
        rw [executes.not_claimable] at free
        cases free
      refine ⟨executes.setClaim apart, fun other member => ?_⟩
      cases List.mem_singleton.mp member
      exact apart.symm
  | @renewed ref leaseUntil installed matching =>
      refine ⟨?_, nofun⟩
      by_cases same : itemId = ref.itemId
      · subst same
        obtain ⟨-, sameEpoch, phase, hash⟩ := executes.presents matching
        refine ⟨_, by rw [lookup_setClaim, if_pos rfl],
          .inr ⟨{ ref with leaseUntil := leaseUntil }, rfl, phase, sameEpoch, hash⟩⟩
      · exact executes.setClaim same
  | @begun ref matching phase =>
      refine ⟨executes.setClaim ?_, nofun⟩
      rintro rfl
      rw [(executes.presents matching).2.2.1] at phase
      cases phase
  | @released ref matching phase =>
      refine ⟨executes.deleteClaim ?_, nofun⟩
      rintro rfl
      rw [(executes.presents matching).2.2.1] at phase
      cases phase
  | @completed call matching =>
      refine ⟨Executes.deleteClaim executes ?_, nofun⟩
      rintro rfl
      exact kept call.ref (List.mem_singleton_self _) (executes.presents matching)
  | @settled ref matching =>
      refine ⟨executes.deleteClaim ?_, nofun⟩
      rintro rfl
      exact kept ref (List.mem_singleton_self _) (executes.presents matching)

end

theorem Executes.run (run : Run EditStep queue edits after)
    (executes : Executes queue itemId epoch tokenHash)
    (kept : ∀ ref ∈ edits.flatMap QueueEdit.clears, ¬ Presents ref itemId epoch tokenHash) :
    Executes after itemId epoch tokenHash ∧
      ∀ ref ∈ edits.flatMap QueueEdit.creates, ref.itemId ≠ itemId := by
  induction run with
  | nil => exact ⟨executes, nofun⟩
  | snoc _ taken ih =>
      rw [List.flatMap_append, List.flatMap_singleton] at kept
      obtain ⟨before, apart⟩ := ih fun ref member => kept ref (List.mem_append_left _ member)
      obtain ⟨still, others⟩ := before.step taken fun ref member =>
        kept ref (List.mem_append_right _ member)
      refine ⟨still, fun ref member => ?_⟩
      rw [List.flatMap_append, List.flatMap_singleton] at member
      rcases List.mem_append.mp member with old | new
      · exact apart ref old
      · exact others ref new

end

/-! What the steps install. -/

variable {file : Option SharedFleetQueue}

theorem readQueueResult_valid (read : readQueueResult file = some queue) :
    validQueue queue = true := by
  cases file with
  | none =>
      cases read
      decide
  | some held =>
      unfold readQueueResult at read
      dsimp only at read
      split_ifs at read with valid
      cases read
      exact valid

theorem readQueueResult_some (valid : validQueue queue = true) :
    readQueueResult (some queue) = some queue :=
  if_pos valid

structure Installs (file : Option SharedFleetQueue) (label : QueueLabel)
    (next : Option SharedFleetQueue) (queue : SharedFleetQueue) (edits : List QueueEdit)
    (after : SharedFleetQueue) : Prop where
  read : readQueueResult file = some queue
  run : Run EditStep queue edits after
  valid : validQueue (bounded after) = true
  file : next = some (bounded after)
  creates : edits.flatMap QueueEdit.creates = label.created
  completes : edits.flatMap QueueEdit.completes = label.completed
  clears : edits.flatMap QueueEdit.clears = label.cleared

variable {label : QueueLabel}

theorem Transacts.installs {α : Type} {change : SharedFleetQueue → SharedFleetQueue × α}
    {next : Option SharedFleetQueue} {done : Option α}
    (transacts : Transacts change file done next)
    (quiet : done = none → label.created = [] ∧ label.completed = [])
    (edited : ∀ queue, done = some (change queue).2 → ∃ edits,
      Run EditStep queue edits (change queue).1 ∧
      edits.flatMap QueueEdit.creates = label.created ∧
      edits.flatMap QueueEdit.completes = label.completed ∧
      edits.flatMap QueueEdit.clears = label.cleared) :
    (next = file ∧ label.created = [] ∧ label.completed = []) ∨
      ∃ queue edits after, Installs file label next queue edits after := by
  cases transacts with
  | unwritten => exact .inl ⟨rfl, quiet rfl⟩
  | @installed queue read valid =>
      obtain ⟨edits, run, creates, completes, clears⟩ := edited queue rfl
      exact .inr ⟨queue, edits, _, read, run, valid, rfl, creates, completes, clears⟩

variable {system : QueueSystem}

theorem QueueStep.installs {next : QueueSystem} (step : QueueStep system label next) :
    (next.file = system.file ∧ label.created = [] ∧ label.completed = []) ∨
      ∃ queue edits after, Installs system.file label next.file queue edits after := by
  cases step with
  | @claim call _ _ _ _ transacts =>
      refine transacts.installs ?_ fun queue spelled => ?_
      · rintro rfl
        exact ⟨rfl, rfl⟩
      · obtain ⟨fenced, either, run⟩ := claimLeasesByLane_edits call queue
        refine ⟨_, run, ?_⟩
        rw [spelled]
        rcases either with rfl | rfl <;>
          simp [List.flatMap_map, QueueEdit.creates, QueueEdit.completes, QueueEdit.clears,
            QueueLabel.created, QueueLabel.completed, QueueLabel.cleared]
  | @renew refs leaseMs now _ _ _ transacts =>
      refine transacts.installs (fun _ => ⟨rfl, rfl⟩) fun queue _ => ?_
      obtain ⟨renewed, run⟩ := renewClaims_edits leaseMs now refs queue
      refine ⟨_, run, ?_⟩
      simp [List.flatMap_map, QueueEdit.creates, QueueEdit.completes, QueueEdit.clears,
        QueueLabel.created, QueueLabel.completed, QueueLabel.cleared]
  | @begin ref now _ _ _ transacts =>
      refine transacts.installs (fun _ => ⟨rfl, rfl⟩) fun queue _ => ?_
      rcases @beginClaimExecution_edits ref now queue with same | ⟨_, _, edit⟩
      · exact ⟨[], by rw [same]; exact .nil, rfl, rfl, rfl⟩
      · exact ⟨_, .single edit, rfl, rfl, rfl⟩
  | @release refs _ _ _ transacts =>
      refine transacts.installs (fun _ => ⟨rfl, rfl⟩) fun queue _ => ?_
      obtain ⟨released, run⟩ := releaseClaims_edits refs queue
      refine ⟨_, run, ?_⟩
      simp [List.flatMap_map, QueueEdit.creates, QueueEdit.completes, QueueEdit.clears,
        QueueLabel.created, QueueLabel.completed, QueueLabel.cleared]
  | @complete call _ _ _ _ transacts =>
      refine transacts.installs ?_ fun queue spelled => ?_
      · rintro rfl
        exact ⟨rfl, rfl⟩
      · rcases @completeClaim_edits call queue with same | ⟨done, run⟩
        · rw [spelled, same]
          exact ⟨[], .nil, rfl, rfl, rfl⟩
        · rw [spelled, done]
          exact ⟨_, run, rfl, rfl, rfl⟩
  | @settle ref now _ _ _ transacts =>
      refine transacts.installs (fun _ => ⟨rfl, rfl⟩) fun queue spelled => ?_
      rcases @settleClaim_edits ref now queue with same | ⟨done, run⟩
      · rw [spelled, same]
        exact ⟨[], .nil, rfl, rfl, rfl⟩
      · rw [spelled, done]
        exact ⟨_, run, rfl, rfl, rfl⟩
  | probe => exact .inl ⟨rfl, rfl, rfl⟩

/-! Runs. -/

def ownersOf (file : Option SharedFleetQueue) : List ModernClaimOwner :=
  match readQueueResult file with
  | some queue => queue.owners
  | none => []

def RunIssued (start file : Option SharedFleetQueue) (created : List QueueClaimRef)
    (completed : List CompleteCall) : Prop :=
  (file = start ∧ created = [] ∧ completed = []) ∨
    ∃ queue, readQueueResult file = some queue ∧ Issued (ownersOf start) queue created completed

/-- What was issued looks at the claims and the fence only, which `bounded` leaves. -/
theorem Issued.congr {other : SharedFleetQueue} (issued : Issued owners queue created completed)
    (claims : other.claims = queue.claims) (fence : other.fence = queue.fence) :
    Issued owners other created completed := by
  obtain ⟨_, _, _, _⟩ := queue
  obtain ⟨_, _, _, _⟩ := other
  cases claims
  cases fence
  exact ⟨issued.keys, issued.known, issued.below, issued.fresh, issued.increasing, issued.spent,
    issued.gone, issued.once⟩

variable {itemId tokenHash : JsString}

variable {epoch : ℕ}

theorem Executes.congr {other : SharedFleetQueue}
    (executes : Executes queue itemId epoch tokenHash) (claims : other.claims = queue.claims) :
    Executes other itemId epoch tokenHash := by
  rwa [Executes, claims]

theorem createdIn_snoc (labels : List QueueLabel) (label : QueueLabel) :
    createdIn (labels ++ [label]) = createdIn labels ++ label.created := by
  rw [createdIn, List.flatMap_append, List.flatMap_singleton, createdIn]

theorem completedIn_snoc (labels : List QueueLabel) (label : QueueLabel) :
    completedIn (labels ++ [label]) = completedIn labels ++ label.completed := by
  rw [completedIn, List.flatMap_append, List.flatMap_singleton, completedIn]

variable {labels : List QueueLabel}

theorem run_issued {start : Option SharedFleetQueue} {waiting : List WaitingCall}
    (run : Run QueueStep ⟨start, waiting⟩ labels system) :
    RunIssued start system.file (createdIn labels) (completedIn labels) := by
  induction run with
  | nil => exact .inl ⟨rfl, rfl, rfl⟩
  | snoc _ taken ih =>
      rw [createdIn_snoc, completedIn_snoc]
      rcases taken.installs with ⟨same, created, completed⟩ | ⟨queue, edits, after, installs⟩
      · rw [same, created, completed, List.append_nil, List.append_nil]
        exact ih
      · rw [installs.file, ← installs.creates, ← installs.completes]
        right
        refine ⟨_, readQueueResult_some installs.valid, ?_⟩
        rcases ih with ⟨same, created, completed⟩ | ⟨before, read, issued⟩
        · have base := Issued.start (readQueueResult_valid installs.read)
          rw [created, completed, ← same, ownersOf, installs.read]
          exact (base.run installs.run).congr (claims_bounded _) (fence_bounded _)
        · cases read.symm.trans installs.read
          exact (issued.run installs.run).congr (claims_bounded _) (fence_bounded _)

theorem Executing.executes (executing : Executing file itemId epoch tokenHash) :
    ∃ queue, readQueueResult file = some queue ∧ Executes queue itemId epoch tokenHash := by
  obtain ⟨queue, claim, owner, read, held, owned, phase, same, hash⟩ := executing
  exact ⟨queue, read, claim, held, .inl ⟨owner, owned, phase, same, hash⟩⟩

theorem Executes.executing
    (executes : Executes queue itemId epoch tokenHash) (valid : validQueue queue = true) :
    Executing (some queue) itemId epoch tokenHash := by
  obtain ⟨claim, held, either⟩ := executes
  rcases either with ⟨owner, owned, rest⟩ | ⟨ref, key, phase, rfl, rfl⟩
  · exact ⟨queue, claim, owner, readQueueResult_some valid, held, owned, rest⟩
  · obtain ⟨owner, owned, owns⟩ := owner?_encodeOwner (valid_claim valid held) key
    exact ⟨queue, claim, owner, readQueueResult_some valid, held, owned,
      owns.phase.trans phase, owns.epoch, owns.tokenHash⟩

theorem run_executing {later : QueueSystem} (run : Run QueueStep system labels later)
    (executing : Executing system.file itemId epoch tokenHash)
    (kept : ∀ label ∈ labels, ∀ ref ∈ label.cleared, ¬ Presents ref itemId epoch tokenHash) :
    Executing later.file itemId epoch tokenHash ∧
      ∀ ref ∈ createdIn labels, ref.itemId ≠ itemId := by
  induction run with
  | nil => exact ⟨executing, nofun⟩
  | snoc _ taken ih =>
      obtain ⟨still, apart⟩ := ih fun label member => kept label (List.mem_append_left _ member)
      rw [createdIn_snoc]
      rcases taken.installs with ⟨same, created, _⟩ | ⟨queue, edits, after, installs⟩
      · rw [same, created, List.append_nil]
        exact ⟨still, apart⟩
      · obtain ⟨before, read, executes⟩ := still.executes
        cases read.symm.trans installs.read
        obtain ⟨behind, others⟩ := executes.run installs.run <| by
          rw [installs.clears]
          exact kept _ (List.mem_append_right _ (List.mem_singleton_self _))
        have written := (behind.congr (claims_bounded after)).executing installs.valid
        refine ⟨installs.file ▸ written, fun ref member => ?_⟩
        rcases List.mem_append.mp member with old | new
        · exact apart ref old
        · exact others ref (installs.creates ▸ new)

theorem begun_unexpired (valid : validQueue (bounded (setClaim queue ref.itemId
      ⟨encodeOwner { ref with phase := .executing }, legacyExecutingLease⟩)) = true)
    (unexpired : now < ref.leaseUntil) :
    BegunUnexpired (some (bounded (setClaim queue ref.itemId
      ⟨encodeOwner { ref with phase := .executing }, legacyExecutingLease⟩))) ref
      { ref with phase := .executing }.keyed now := by
  have held : (bounded (setClaim queue ref.itemId
      ⟨encodeOwner { ref with phase := .executing }, legacyExecutingLease⟩)).claims.lookup
      ref.itemId = some ⟨encodeOwner { ref with phase := .executing }, legacyExecutingLease⟩ := by
    rw [claims_bounded, lookup_setClaim, if_pos rfl]
  obtain ⟨owner, owned, owns⟩ := owner?_encodeOwner (valid_claim valid held) rfl
  exact ⟨_, _, owner, readQueueResult_some valid, held, owned, owns.phase, owns.epoch,
    owns.tokenHash, rfl, owns.leaseUntil.symm, owns.leaseUntil.symm ▸ unexpired⟩

theorem claimCapabilityMatches_some (matching : claimCapabilityMatches queue ref = some owner) :
    ∃ claim, queue.claims.lookup ref.itemId = some claim ∧ claim.owner? = some owner ∧
      owner.epoch = ref.epoch ∧ owner.phase = ref.phase ∧
      owner.tokenHash = ownerTokenHash ref.ownerToken := by
  unfold claimCapabilityMatches at matching
  simp only [Option.bind_eq_bind, Option.bind_eq_some_iff, Option.pure_def,
    Option.some.injEq] at matching
  obtain ⟨claim, held, other, owned, fence, fenced, mark, passed, rfl⟩ := matching
  obtain ⟨_, _, epoch, phase, tokenHash⟩ := guard_eq_some.mp passed
  exact ⟨claim, held, owned, epoch, phase, tokenHash⟩

theorem readBack_unexpired {value : QueueClaimRef} (read : readQueueResult file = some queue)
    (found : readExactClaim queue ref .executing = some value)
    (unexpired : ∀ owner, claimCapabilityMatches queue { ref with phase := .executing } = some owner
    → now < owner.leaseUntil) : BegunUnexpired file ref value now := by
  unfold readExactClaim at found
  simp only [Option.bind_eq_bind, Option.bind_eq_some_iff, Option.pure_def,
    Option.some.injEq] at found
  obtain ⟨owner, matching, claim, held, rfl⟩ := found
  obtain ⟨other, same, owned, epoch, phase, tokenHash⟩ := claimCapabilityMatches_some matching
  cases same.symm.trans held
  exact ⟨queue, claim, owner, read, held, owned, phase, epoch, tokenHash, rfl, rfl,
    unexpired owner matching⟩

theorem CarefulStep.begins {next : QueueSystem} {value : QueueClaimRef}
    (taken : CarefulStep system label next) (begins : label.Begins ref value now) :
    BegunUnexpired next.file ref value now := by
  obtain ⟨step, careful⟩ := taken
  cases step with
  | begin transacts reports =>
      cases begins
      rcases reports with done | none_
      · subst done
        generalize spelled : some (some value) = done at transacts
        cases transacts with
        | unwritten => cases spelled
        | @installed queue read valid =>
            rcases @beginClaimExecution_edits ref now queue with same | ⟨unexpired, same, _⟩
            · rw [same] at spelled
              cases spelled
            · rw [same] at spelled valid ⊢
              cases spelled
              exact begun_unexpired valid unexpired
      · cases none_
  | @probe front back call reading now_ calls read =>
      generalize spelled : call.probe reading now_ = result at begins
      cases begins with
      | readBack =>
          unfold WaitingCall.probe at spelled
          dsimp only at spelled
          cases bound : reading.bind fun queue => readExactClaim queue ref .executing with
          | none =>
              rw [bound] at spelled
              cases spelled
          | some found =>
              rw [bound] at spelled
              cases spelled
              obtain ⟨queue, same, exact_⟩ := Option.bind_eq_some_iff.mp bound
              rcases read with none_ | here
              · rw [none_] at same
                cases same
              · have held := here.symm.trans same
                exact readBack_unexpired held exact_ fun owner matching =>
                  careful rfl queue owner held matching
  | claim | renew | release | complete | settle => cases begins

structure QueueAuthority (start : Option SharedFleetQueue) (labels : List QueueLabel)
    (system : QueueSystem) : Prop where
  /-- Epochs grow from claim to claim, above those of the start. -/
  increasing : (createdIn labels).Pairwise fun first second => first.epoch < second.epoch
  fresh : ∀ owner ∈ ownersOf start, ∀ ref ∈ createdIn labels, owner.epoch < ref.epoch
  /-- An item has one generation at most. -/
  single : ∀ queue, readQueueResult system.file = some queue → queue.claims.keys.Nodup
  /-- A generation that executes stays the only one until its own capability clears it. -/
  executing : ∀ {more : List QueueLabel} {later : QueueSystem} {itemId tokenHash : JsString}
    {epoch : ℕ}, Run QueueStep system more later → Executing system.file itemId epoch tokenHash →
    (∀ label ∈ more, ∀ ref ∈ label.cleared, ¬ Presents ref itemId epoch tokenHash) →
    Executing later.file itemId epoch tokenHash ∧ ∀ ref ∈ createdIn more, ref.itemId ≠ itemId
  completions : ((completedIn labels).map (·.completionId)).Nodup
  begun : ∀ {label : QueueLabel} {next : QueueSystem} {ref value : QueueClaimRef} {now : ℤ},
    CarefulStep system label next → label.Begins ref value now →
    BegunUnexpired next.file ref value now

theorem mem_completedIn {call : CompleteCall} (member : call ∈ completedIn labels) :
    ∃ answer, .complete call (some true) answer ∈ labels := by
  obtain ⟨label, inRun, completed⟩ := List.mem_flatMap.mp member
  cases label with
  | complete other done answer =>
      cases done with
      | none => cases completed
      | some done =>
          cases done with
          | false => cases completed
          | true =>
              cases List.mem_singleton.mp completed
              exact ⟨answer, inRun⟩
  | claim | renew | begin | release | settle | probe => cases completed

/-- In every run of careful steps that uses a completion id for one generation only, the queue keeps
its authority. -/
theorem run_authority {start : Option SharedFleetQueue} {labels : List QueueLabel}
    {system : QueueSystem} (run : Run CarefulStep ⟨start, []⟩ labels system)
    (single : SingleUse labels) : QueueAuthority start labels system := by
  have issued := run_issued (run.mono fun step => step.1)
  have sound : (createdIn labels).Pairwise (fun first second => first.epoch < second.epoch) ∧
      (∀ owner ∈ ownersOf start, ∀ ref ∈ createdIn labels, owner.epoch < ref.epoch) ∧
      (completedIn labels).Pairwise fun first second =>
        ¬ (first.ref.itemId = second.ref.itemId ∧ first.ref.epoch = second.ref.epoch) := by
    rcases issued with ⟨_, created, completed⟩ | ⟨queue, _, issued⟩
    · rw [created, completed]
      exact ⟨.nil, nofun, .nil⟩
    · exact ⟨issued.increasing, issued.fresh, issued.once⟩
  refine ⟨sound.1, sound.2.1, fun queue _ => queue.claims.keys_nodup,
    fun more executing kept => run_executing more executing kept, ?_,
    fun taken begins => taken.begins begins⟩
  rw [List.nodup_iff_pairwise_ne, List.pairwise_map]
  refine sound.2.2.imp_of_mem fun {first second} inFirst inSecond apart same => ?_
  obtain ⟨_, firstCall⟩ := mem_completedIn inFirst
  obtain ⟨_, secondCall⟩ := mem_completedIn inSecond
  exact apart (single firstCall secondCall same)

/-! A beginning that is asked for again when its lease has run out. -/

def one : Double where
  val := 1
  isDouble := ⟨1, 0, by norm_num, by norm_num, by norm_num⟩
  finite := by
    rw [abs_one]
    exact one_lt_pow₀ one_lt_two (by norm_num)

def sampleItem : JsString := js "item-a"

def sampleId : JsString := js "0b9a1a52-7b5e-4c1e-9d7a-2f5a4c8e1b30"

def sampleClaim : ClaimCall where
  lanes := [⟨[sampleItem], .finite one⟩]
  count := .finite one
  machineId := js "machine-A"
  cooldownPolicies := fun _ => none
  leaseMs := 1000
  now := 10000
  queueId := sampleId
  ownerTokens := fun _ => sampleId

def sampleKeyTail : JsString :=
  js ":7ps:bWFjaGluZS1B:0c63cbe2801b3f4ab7cbdc4c4482b84f243f0f9028ac145db97fa77e524a225c:8hk"

def claimedRef : QueueClaimRef where
  itemId := sampleItem
  machineId := js "machine-A"
  ownerKey := js "ashlr-q2:c" ++ sampleKeyTail
  ownerToken := sampleId
  queueId := sampleId
  epoch := 10000
  phase := .claimed
  leaseUntil := 11000

def claimedQueue : SharedFleetQueue :=
  ⟨some ⟨sampleId, 10001⟩, AList.singleton sampleItem ⟨claimedRef.ownerKey, 11000⟩, [], []⟩

def begunRef : QueueClaimRef :=
  { claimedRef with
    phase := .executing
    ownerKey := js "ashlr-q2:e" ++ sampleKeyTail }

def begunQueue : SharedFleetQueue :=
  ⟨some ⟨sampleId, 10001⟩, AList.singleton sampleItem ⟨begunRef.ownerKey, legacyExecutingLease⟩,
    [], []⟩

/-- The claim and its beginning, in one computation. -/
theorem sample_steps :
    (claimLeasesByLane sampleClaim emptyQueue = (claimedQueue, [claimedRef]) ∧
      beginClaimExecution claimedRef 10500 claimedQueue = (begunQueue, some begunRef) ∧
      readExactClaim begunQueue claimedRef .executing = some begunRef) ∧
    validQueue claimedQueue = true ∧ validQueue begunQueue = true := by
  decide +kernel

theorem sample_bounded : bounded claimedQueue = claimedQueue ∧ bounded begunQueue = begunQueue := by
  simp [bounded, claimedQueue, begunQueue]

theorem Transacts.of_eq {α : Type} {change : SharedFleetQueue → SharedFleetQueue × α} {value : α}
    (read : readQueueResult file = some queue) (changes : change queue = (after, value))
    (whole : bounded after = after) (valid : validQueue after = true) :
    Transacts change file (some value) (some after) := by
  have installed : Transacts change file (some (change queue).2)
    (some (bounded (change queue).1)) :=
    .installed read (by rwa [changes, whole])
  rwa [changes, whole] at installed

def completingCall : CompleteCall :=
  ⟨begunRef, sampleItem, .diff, sampleId, 10600, js "2026-10-01T00:00:00.000Z"⟩

abbrev Completes (call : CompleteCall) (queue : SharedFleetQueue) : Prop :=
  call.admitted = true ∧ validQueue queue = true ∧ (completeClaim call queue).2 = true ∧
    bounded (completeClaim call queue).1 = (completeClaim call queue).1 ∧
      validQueue (completeClaim call queue).1 = true

theorem Completes.step {call : CompleteCall} (completes : Completes call queue) :
    QueueStep ⟨some queue, []⟩ (.complete call (some true) true)
      ⟨some (completeClaim call queue).1, []⟩ := by
  obtain ⟨admitted, valid, taken, whole, after⟩ := completes
  exact .complete admitted (.of_eq (readQueueResult_some valid) (Prod.ext rfl taken) whole after)
    (.inl rfl)

def sampleLabels : List QueueLabel :=
  [.claim sampleClaim (some [claimedRef]) [claimedRef],
    .begin claimedRef 10500 (some (some begunRef)) (some begunRef)]

theorem claimed_step : QueueStep ⟨none, []⟩ (.claim sampleClaim (some [claimedRef]) [claimedRef])
    ⟨some claimedQueue, []⟩ :=
  .claim (by decide +kernel)
    (.of_eq rfl sample_steps.1.1 sample_bounded.1 sample_steps.2.1) (.inl rfl)

theorem sample_run : Run CarefulStep ⟨none, []⟩ sampleLabels ⟨some begunQueue, []⟩ := by
  have begun : QueueStep ⟨some claimedQueue, []⟩
      (.begin claimedRef 10500 (some (some begunRef)) (some begunRef)) ⟨some begunQueue, []⟩ :=
    .begin (.of_eq (readQueueResult_some sample_steps.2.1) sample_steps.1.2.1 sample_bounded.2
      sample_steps.2.2) (.inl rfl)
  exact (Run.single ⟨claimed_step, nofun⟩).snoc ⟨begun, nofun⟩

theorem run_authority_sample :
    QueueAuthority none (sampleLabels ++ [.complete completingCall (some true) true])
      ⟨some (completeClaim completingCall begunQueue).1, []⟩ := by
  have completes : Completes completingCall begunQueue := by decide +kernel
  refine run_authority (sample_run.snoc ⟨completes.step, nofun⟩) ?_
  intro first second done other answer again inFirst inSecond _
  simp only [sampleLabels, List.cons_append, List.nil_append, List.mem_cons, reduceCtorEq,
    QueueLabel.complete.injEq, List.not_mem_nil, or_false, false_or] at inFirst inSecond
  rw [inFirst.1, inSecond.1]
  exact ⟨rfl, rfl⟩

/-- The same beginning again, behind its lease, is reported a success. -/
theorem begin_expired :
    ¬ ∀ {start : Option SharedFleetQueue} {labels : List QueueLabel} {system next : QueueSystem}
      {label : QueueLabel} {ref value : QueueClaimRef} {now : ℤ},
      Run QueueStep ⟨start, []⟩ labels system → QueueStep system label next →
      label.Begins ref value now → BegunUnexpired next.file ref value now := by
  intro unexpired
  have run : Run QueueStep ⟨none, []⟩ sampleLabels ⟨some begunQueue, []⟩ :=
    sample_run.mono fun step => step.1
  have read := readQueueResult_some sample_steps.2.2
  have refused : beginClaimExecution claimedRef 20000 begunQueue = (begunQueue, none) :=
    if_pos (.inr (.inr (by decide)))
  have again : QueueStep ⟨some begunQueue, []⟩ (.begin claimedRef 20000 (some none) none)
      ⟨some begunQueue, [.begin claimedRef]⟩ :=
    .begin (.of_eq read refused sample_bounded.2 sample_steps.2.2) (.inl rfl)
  have found : (WaitingCall.begin claimedRef).probe (some begunQueue) 20000 =
      .answers (.success (some begunRef)) := by
    simp only [WaitingCall.probe, Option.bind_some, sample_steps.1.2.2]
  have probed : QueueStep ⟨some begunQueue, [.begin claimedRef]⟩
      (.probe (.begin claimedRef) 20000 (.answers (.success (some begunRef))))
      ⟨some begunQueue, []⟩ := by
    have step := @QueueStep.probe ⟨some begunQueue, [.begin claimedRef]⟩ [] [] (.begin claimedRef)
      (some begunQueue) 20000 rfl (.inr read.symm)
    rwa [found] at step
  obtain ⟨_, _, owner, _, _, _, _, _, _, _, same, lease⟩ :=
    unexpired (run.snoc again) probed .readBack
  rw [← same] at lease
  exact absurd lease (by decide)

end AshlrHub.Fleet
