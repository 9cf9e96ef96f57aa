import Obsidian.Deliveries

namespace Obsidian

open Obsidian.Data Relation

/-! # Body limits

What becomes of a body that is handed over in parts, at and below the limit of the
WAF.
-/

/-! ## One delivery -/

/-- The transaction takes a body with the limit of its WAF, and holds these bytes of it. -/
structure Receiving (waf : WAF) (d : Direction) (held : Bytes) (tx : Transaction) : Prop where
  running : tx.ruleEngine ≠ .off
  access : tx.bodyAccess d = true
  limit : tx.bodyLimit d = (waf.bodyOptions d).limit
  options : (tx.bodyBuffer d).options = waf.bodyOptions d
  holds : (tx.bodyBuffer d).Holds held
  within : (held.length : Int) ≤ (waf.bodyOptions d).limit

inductive Received (host : Host) (waf : WAF) (d : Direction) (held : Bytes) (w : Delivery)
    (tx : Transaction) : Transaction → Prop
  | full (full : held.length = (waf.bodyOptions d).limit) : Received host waf d held w tx tx
  | stored (buffer : BodyBuffer) (options : buffer.options = waf.bodyOptions d)
      (below : (held.length : Int) + w.bytes.length < (waf.bodyOptions d).limit)
      (grown : buffer.Holds (held ++ w.bytes)) :
      Received host waf d held w tx (tx.setBodyBuffer buffer d)
  | rejected (buffer : BodyBuffer) (options : buffer.options = waf.bodyOptions d) (kept : Bytes)
      (reached : (waf.bodyOptions d).limit ≤ held.length + w.bytes.length)
      (action : waf.limitAction d = .reject) (holds : buffer.Holds kept)
      (within : (kept.length : Int) ≤ (waf.bodyOptions d).limit) :
      Received host waf d held w tx
        (((tx.setBodyBuffer buffer d).flagDataError d).interruptBodyLimit d)
  | processed (buffer : BodyBuffer) (options : buffer.options = waf.bodyOptions d)
      (v : TransactionVariables) (below : (held.length : Int) < (waf.bodyOptions d).limit)
      (reached : (waf.bodyOptions d).limit ≤ held.length + w.bytes.length)
      (action : waf.limitAction d = .processPartial)
      (grown : buffer.Holds ((held ++ w.bytes).take (waf.bodyOptions d).limit.toNat)) :
      Received host waf d held w tx
        (processBody host waf d { tx.setBodyBuffer buffer d with vars := v }).1

section

variable {host : Host} {waf : WAF} {d : Direction} {tx : Transaction} {held : Bytes}

theorem Received.of_flagged {w : Delivery} {next : Transaction}
    (received : Received host waf d held w (tx.flagDataError d) next)
    (below : (held.length : Int) < (waf.bodyOptions d).limit)
    (reached : (waf.bodyOptions d).limit ≤ held.length + w.bytes.length)
    (action : waf.limitAction d = .processPartial) : Received host waf d held w tx next := by
  cases received with
  | full full => omega
  | stored buffer options short grown => omega
  | rejected buffer options kept _ rejects => rw [action] at rejects; cases rejects
  | processed buffer options v _ _ _ grown =>
    have same : { (tx.flagDataError d).setBodyBuffer buffer d with vars := v } =
        { tx.setBodyBuffer buffer d with vars := v } := by cases d <;> rfl
    rw [same]
    exact .processed buffer options v below reached action grown

theorem Receiving.room (valid : waf.validate = none) (receiving : Receiving waf d held tx) :
    tx.bodyRoom d = (waf.bodyOptions d).limit - held.length := by
  obtain ⟨positive, small⟩ := waf.limit_range valid d
  have within := receiving.within
  simp only [gib] at small
  simp only [Transaction.bodyRoom]
  rw [receiving.limit, receiving.holds.length]
  exact wrap64_eq_self (by simp only [IsInt64]; omega)

theorem Receiving.flagged (receiving : Receiving waf d held tx) :
    Receiving waf d held (tx.flagDataError d) := by
  obtain ⟨running, access, limit, options, holds, within⟩ := receiving
  cases d <;> exact ⟨running, access, limit, options, holds, within⟩

theorem Receiving.fits (valid : waf.validate = none) (receiving : Receiving waf d held tx) :
    IsInt64 (tx.bodyBuffer d).options.limit := by
  rw [receiving.options]
  exact waf.limit_isInt64 valid d

theorem Receiving.take (receiving : Receiving waf d held tx) (bytes : Bytes) :
    held ++ bytes.take ((waf.bodyOptions d).limit - held.length).toNat =
      (held ++ bytes).take (waf.bodyOptions d).limit.toNat := by
  have within := receiving.within
  have whole : held.take (waf.bodyOptions d).limit.toNat = held :=
    List.take_of_length_le (by omega)
  rw [List.take_append, whole]
  congr 2
  omega

section

variable (valid : waf.validate = none) (reliable : host.disk.Reliable)
  (receiving : Receiving waf d held tx)

include valid reliable receiving

theorem Receiving.stores_all {w : Delivery} {n : Int} (enough : (w.bytes.length : Int) ≤ n)
    (exact : ∀ len, w.known = some len → n = len)
    (below : (held.length : Int) + w.bytes.length < (waf.bodyOptions d).limit) :
    Received host waf d held w tx (w.store host waf d n false tx).1 := by
  have fits := receiving.fits valid
  have options := receiving.options
  cases w with
  | write b =>
    obtain rfl : n = b.bytes.length := exact _ rfl
    obtain ⟨buffer, grown, same, result⟩ := storeSlice_holds waf reliable receiving.holds fits
      (b := b.bytes) false (Int.natCast_nonneg _) (Int.le_refl _)
      (by rw [options]; exact Int.le_of_lt below)
    simp only [Delivery.store, result, finishWrite_false]
    rw [Int.toNat_natCast, List.take_length] at grown
    exact .stored buffer (same.trans options) below grown
  | read r =>
    have below' : (held.length : Int) + r.len < (waf.bodyOptions d).limit := below
    have enough' : (r.len : Int) ≤ n := enough
    obtain ⟨buffer, grown, same, result⟩ := storeCopy_holds waf reliable receiving.holds fits
      (n := n) r false (by omega) (by rw [options]; omega)
    rw [List.take_of_length_le (by simp only [Reader.len] at enough'; omega)] at grown
    have short : buffer.length ≠ tx.bodyLimit d := by
      rw [grown.length, receiving.limit, List.length_append]
      simp only [Reader.len] at below'
      omega
    have kept : (w : Nat) → (finishCopy host waf d false w (tx.setBodyBuffer buffer d)).1 =
        tx.setBodyBuffer buffer d := fun w => by
      simp [finishCopy, short]
    simp only [Delivery.store, result]
    split
    · exact .stored buffer (same.trans options) below grown
    · rw [kept]
      exact .stored buffer (same.trans options) below grown

theorem Receiving.stores_limit {w : Delivery} {runProcessBody : Bool}
    (below : (held.length : Int) < (waf.bodyOptions d).limit)
    (reached : (waf.bodyOptions d).limit ≤ held.length + w.bytes.length)
    (planned : ∀ len, w.known = some len →
      runProcessBody = true ∧ waf.limitAction d = .processPartial) :
    Received host waf d held w tx
      (w.store host waf d ((waf.bodyOptions d).limit - held.length) runProcessBody tx).1 := by
  have fits := receiving.fits valid
  have options := receiving.options
  have take := receiving.take w.bytes
  cases w with
  | write b =>
    obtain ⟨rfl, action⟩ := planned _ rfl
    have reached' : (waf.bodyOptions d).limit ≤ held.length + b.bytes.length := reached
    obtain ⟨buffer, grown, same, result⟩ := storeSlice_holds waf reliable receiving.holds fits
      (n := (waf.bodyOptions d).limit - held.length) (b := b.bytes) true (by omega) (by omega)
      (by rw [options]; omega)
    simp only [Delivery.store, result, finishWrite_true]
    exact .processed buffer (same.trans options) (tx.setBodyBuffer buffer d).vars below reached
      action (take ▸ grown)
  | read r =>
    have reached' : (waf.bodyOptions d).limit ≤ held.length + r.len := reached
    obtain ⟨buffer, grown, same, result⟩ := storeCopy_holds waf reliable receiving.holds fits
      (n := (waf.bodyOptions d).limit - held.length) r runProcessBody (by omega)
      (by rw [options]; omega)
    have filled : buffer.length = (waf.bodyOptions d).limit := by
      rw [grown.length, List.length_append, List.length_take]
      simp only [Reader.len] at reached'
      omega
    rw [if_pos (by omega)] at result
    simp only [Delivery.store, result, finishCopy, Transaction.setBodyBuffer_bodyBuffer,
      Transaction.setBodyBuffer_bodyLimit, receiving.limit, filled, if_true]
    split
    · next action =>
        have length := grown.length
        exact .rejected buffer (same.trans options) _ reached action grown (by omega)
    · next action =>
        exact .processed buffer (same.trans options) _ below reached action (take ▸ grown)

theorem Receiving.deliver (w : Delivery) :
    Received host waf d held w tx (step host waf tx (w.call d)) := by
  obtain ⟨positive, small⟩ := waf.limit_range valid d
  have within := receiving.within
  have length := receiving.holds.length
  have limit := receiving.limit
  have short : 0 ≤ (tx.bodyBuffer d).length ∧ (tx.bodyBuffer d).length ≤ gib := by omega
  simp only [step]
  rw [Delivery.call_eq, writeWith, if_neg receiving.running, if_neg (by simp [receiving.access])]
  by_cases full : tx.bodyLimit d = (tx.bodyBuffer d).length
  · rw [if_pos full]
    exact .full (by omega)
  · rw [if_neg full]
    have below : (held.length : Int) < (waf.bodyOptions d).limit := by omega
    cases known : w.known with
    | none =>
      simp only [planWrite, receiving.room valid]
      by_cases reached : (waf.bodyOptions d).limit ≤ held.length + w.bytes.length
      · exact receiving.stores_limit valid reliable below reached (by simp [known])
      · exact receiving.stores_all valid reliable (by omega) (by simp [known]) (by omega)
    | some len =>
      have exact := (Delivery.known_length known).1
      rw [← known]
      by_cases reached : (waf.bodyOptions d).limit ≤ held.length + w.bytes.length
      · cases action : waf.limitAction d with
        | reject =>
          rw [planWrite_rejects short known (by omega) action]
          have same : tx.setBodyBuffer (tx.bodyBuffer d) d = tx := by cases d <;> rfl
          have rejected : Received host waf d held w tx
              (((tx.setBodyBuffer (tx.bodyBuffer d) d).flagDataError d).interruptBodyLimit d) :=
            .rejected _ receiving.options held reached action receiving.holds within
          rw [same] at rejected
          exact rejected
        | processPartial =>
          rw [planWrite_processPartial short known (by omega) action, receiving.room valid]
          have stored : Received host waf d held w (tx.flagDataError d)
              (w.store host waf d ((waf.bodyOptions d).limit - held.length) true
                (tx.flagDataError d)).1 :=
            receiving.flagged.stores_limit valid reliable below reached fun _ _ => ⟨rfl, action⟩
          exact stored.of_flagged below reached action
      · rw [planWrite_below short known (by omega)]
        refine receiving.stores_all valid reliable (by omega) (fun other found => ?_) (by omega)
        rw [known] at found
        cases found
        rfl

end

end

/-! ## A whole body -/

section

variable {host : Host} {waf : WAF} {d : Direction} {tx : Transaction} {held : Bytes}

def delivered (body : List Delivery) : Bytes := body.flatMap Delivery.bytes

def deliver (host : Host) (waf : WAF) (d : Direction) (tx : Transaction) (body : List Delivery) :
    Transaction :=
  run host waf tx (body.map (Delivery.call d))

theorem deliver_cons (w : Delivery) (rest : List Delivery) :
    deliver host waf d tx (w :: rest) = deliver host waf d (step host waf tx (w.call d)) rest := rfl

/-- Where a body that may be processed in part stands: the bytes delivered since
`tx` are kept up to the limit, and the body phase has run once it was reached. -/
structure PartialBody (waf : WAF) (d : Direction) (tx : Transaction) (total : Bytes)
    (now : Transaction) : Prop where
  holds : (now.bodyBuffer d).Holds (total.take (waf.bodyOptions d).limit.toNat)
  limit : now.bodyLimit d = (waf.bodyOptions d).limit
  phases : now.phases = tx.phases ++
    if (waf.bodyOptions d).limit ≤ total.length ∧ Due d.bodyPhase tx then [d.bodyPhase] else []
  receiving : (total.length : Int) < (waf.bodyOptions d).limit →
    Receiving waf d total now ∧ (Due d.bodyPhase now ↔ Due d.bodyPhase tx)

theorem PartialBody.start (valid : waf.validate = none) (receiving : Receiving waf d [] tx) :
    PartialBody waf d tx [] tx where
  holds := by simpa using receiving.holds
  limit := receiving.limit
  phases := by
    have positive := (waf.limit_range valid d).1
    rw [if_neg fun reached => by simpa using Int.lt_of_lt_of_le positive reached.1,
      List.append_nil]
  receiving _ := ⟨receiving, Iff.rfl⟩

theorem due_setBodyBuffer (phase : RulePhase) (buffer : BodyBuffer) :
    Due phase (tx.setBodyBuffer buffer d) ↔ Due phase tx := by
  cases d <;> cases phase <;> rfl

theorem Receiving.stored (receiving : Receiving waf d held tx) {buffer : BodyBuffer} {bytes : Bytes}
    (options : buffer.options = waf.bodyOptions d) (holds : buffer.Holds bytes)
    (within : (bytes.length : Int) ≤ (waf.bodyOptions d).limit) :
    Receiving waf d bytes (tx.setBodyBuffer buffer d) := by
  obtain ⟨running, access, limit, _, _, _⟩ := receiving
  cases d <;> exact ⟨running, access, limit, options, holds, within⟩

theorem setBodyBuffer_phases (buffer : BodyBuffer) :
    (tx.setBodyBuffer buffer d).phases = tx.phases := by
  cases d <;> rfl

section

variable {total : Bytes} {now : Transaction} (sofar : PartialBody waf d tx total now)

include sofar

theorem PartialBody.phases_below (below : (total.length : Int) < (waf.bodyOptions d).limit) :
    now.phases = tx.phases := by
  rw [sofar.phases, if_neg fun reached => Int.not_le.mpr below reached.1, List.append_nil]

theorem PartialBody.stores {bytes : Bytes} {buffer : BodyBuffer}
    (short : ((total ++ bytes).length : Int) < (waf.bodyOptions d).limit)
    (options : buffer.options = waf.bodyOptions d) (grown : buffer.Holds (total ++ bytes)) :
    PartialBody waf d tx (total ++ bytes) (now.setBodyBuffer buffer d) := by
  have below : (total.length : Int) < (waf.bodyOptions d).limit := by
    rw [List.length_append] at short
    omega
  obtain ⟨receiving, sameDue⟩ := sofar.receiving below
  refine ⟨?_, ?_, ?_, fun _ => ⟨receiving.stored options grown (Int.le_of_lt short), ?_⟩⟩
  · rw [List.take_of_length_le (by omega), Transaction.setBodyBuffer_bodyBuffer]
    exact grown
  · simpa using sofar.limit
  · rw [setBodyBuffer_phases, sofar.phases_below below,
      if_neg fun reached => Int.not_le.mpr short reached.1, List.append_nil]
  · exact (due_setBodyBuffer ..).trans sameDue

theorem PartialBody.processes (reliable : host.disk.Reliable) {bytes : Bytes} {buffer : BodyBuffer}
    {v : TransactionVariables} (below : (total.length : Int) < (waf.bodyOptions d).limit)
    (reached : (waf.bodyOptions d).limit ≤ ((total ++ bytes).length : Int))
    (grown : buffer.Holds ((total ++ bytes).take (waf.bodyOptions d).limit.toNat)) :
    PartialBody waf d tx (total ++ bytes)
      (processBody host waf d { now.setBodyBuffer buffer d with vars := v }).1 := by
  obtain ⟨receiving, sameDue⟩ := sofar.receiving below
  have same : { now.setBodyBuffer buffer d with vars := v } =
      { now with vars := v }.setBodyBuffer buffer d := by cases d <;> rfl
  have fed : Due d.bodyPhase { now with vars := v } ↔ Due d.bodyPhase now := by cases d <;> rfl
  rw [same]
  have running : ({ now with vars := v }.setBodyBuffer buffer d).ruleEngine ≠ .off := by
    cases d <;> exact receiving.running
  obtain ⟨kept, limit, phases⟩ := processBody_phases waf (d := d) reliable running
    (by rw [Transaction.setBodyBuffer_bodyBuffer]; exact grown)
  refine ⟨kept, limit.trans ?_, ?_, fun short => absurd reached (Int.not_le.mpr short)⟩
  · rw [Transaction.setBodyBuffer_bodyLimit]
    exact sofar.limit
  · simp only [phases, setBodyBuffer_phases, due_setBodyBuffer, fed, sameDue, reached, true_and]
    rw [← sofar.phases_below below]
    rfl

theorem PartialBody.ignores (bytes : Bytes)
    (reached : (waf.bodyOptions d).limit ≤ (total.length : Int)) :
    PartialBody waf d tx (total ++ bytes) now := by
  have more : (waf.bodyOptions d).limit ≤ ((total ++ bytes).length : Int) := by
    rw [List.length_append]
    omega
  refine ⟨?_, sofar.limit, ?_, fun short => absurd more (Int.not_le.mpr short)⟩
  · rw [List.take_append_of_le_length (by omega)]
    exact sofar.holds
  · simp only [sofar.phases, reached, more]

theorem PartialBody.full (valid : waf.validate = none)
    (reached : (waf.bodyOptions d).limit ≤ (total.length : Int)) :
    now.bodyLimit d = (now.bodyBuffer d).length := by
  have positive := (waf.limit_range valid d).1
  rw [sofar.limit, sofar.holds.length, List.length_take]
  omega

theorem PartialBody.step (valid : waf.validate = none) (reliable : host.disk.Reliable)
    (action : waf.limitAction d = .processPartial) (w : Delivery) :
    PartialBody waf d tx (total ++ w.bytes) (step host waf now (w.call d)) := by
  have length : ((total ++ w.bytes).length : Int) = total.length + w.bytes.length := by
    rw [List.length_append, Int.natCast_add]
  by_cases below : (total.length : Int) < (waf.bodyOptions d).limit
  · have received := (sofar.receiving below).1.deliver valid reliable w
    revert received
    generalize Obsidian.step host waf now (w.call d) = next
    rintro (full | ⟨buffer, options, short, grown⟩ | ⟨_, _, _, _, rejects⟩ |
      ⟨buffer, options, v, _, reached, _, grown⟩)
    · omega
    · exact sofar.stores (by omega) options grown
    · rw [action] at rejects
      cases rejects
    · exact sofar.processes reliable below (by omega) grown
  · rw [step_full w (sofar.full valid (by omega))]
    exact sofar.ignores _ (by omega)

theorem PartialBody.deliver (valid : waf.validate = none) (reliable : host.disk.Reliable)
    (action : waf.limitAction d = .processPartial) (body : List Delivery) :
    PartialBody waf d tx (total ++ delivered body) (deliver host waf d now body) := by
  induction body generalizing total now with
  | nil => simpa [delivered, Obsidian.deliver, run] using sofar
  | cons w rest ih =>
    have next := ih (sofar.step valid reliable action w)
    simpa [delivered, deliver_cons, List.append_assoc] using next

end

/-! ### Rejecting -/

structure RejectedBody (waf : WAF) (d : Direction) (tx : Transaction) (total held : Bytes)
    (now : Transaction) : Prop where
  receiving : Receiving waf d held now
  whole : (total.length : Int) < (waf.bodyOptions d).limit → held = total
  interruption : now.interruption =
    if (waf.bodyOptions d).limit ≤ total.length then
      some { status := d.status, action := str "deny" }
    else tx.interruption

theorem RejectedBody.start (valid : waf.validate = none) (receiving : Receiving waf d [] tx) :
    RejectedBody waf d tx [] [] tx where
  receiving := receiving
  whole _ := rfl
  interruption := by
    have positive := (waf.limit_range valid d).1
    rw [if_neg (by simpa using positive)]

theorem Receiving.rejects (receiving : Receiving waf d held tx) :
    Receiving waf d held ((tx.flagDataError d).interruptBodyLimit d) := by
  obtain ⟨running, access, limit, options, holds, within⟩ := receiving
  cases d <;> exact ⟨running, access, limit, options, holds, within⟩

section

variable {total : Bytes} {now : Transaction} (sofar : RejectedBody waf d tx total held now)

include sofar

theorem RejectedBody.total_of_held {bytes : Bytes}
    (reached : (waf.bodyOptions d).limit ≤ held.length + bytes.length) :
    (waf.bodyOptions d).limit ≤ ((total ++ bytes).length : Int) := by
  rw [List.length_append]
  by_cases below : (total.length : Int) < (waf.bodyOptions d).limit
  · rw [sofar.whole below] at reached
    omega
  · omega

theorem RejectedBody.step (valid : waf.validate = none) (reliable : host.disk.Reliable)
    (action : waf.limitAction d = .reject) (w : Delivery) :
    ∃ kept, RejectedBody waf d tx (total ++ w.bytes) kept (step host waf now (w.call d)) := by
  have length : ((total ++ w.bytes).length : Int) = total.length + w.bytes.length := by
    rw [List.length_append, Int.natCast_add]
  have received := sofar.receiving.deliver valid reliable w
  revert received
  generalize Obsidian.step host waf now (w.call d) = next
  rintro (full | ⟨buffer, options, short, grown⟩ |
    ⟨buffer, options, kept, reached, _, holds, within⟩ | ⟨_, _, _, _, _, rejects⟩)
  · have reached : (waf.bodyOptions d).limit ≤ total.length := by
      by_contra below
      have := sofar.whole (by omega)
      subst this
      omega
    refine ⟨held, sofar.receiving, fun short => by omega, ?_⟩
    rw [sofar.interruption, if_pos reached, if_pos (by omega)]
  · refine ⟨held ++ w.bytes, sofar.receiving.stored options grown ?_, fun below => ?_, ?_⟩
    · rw [List.length_append]
      omega
    · rw [sofar.whole (by omega)]
    · rw [Transaction.setBodyBuffer_interruption, sofar.interruption]
      by_cases below : (total.length : Int) < (waf.bodyOptions d).limit
      · rw [sofar.whole below] at short
        rw [if_neg (by omega), if_neg (by omega)]
      · rw [if_pos (by omega), if_pos (by omega)]
  · have reached := sofar.total_of_held reached
    refine ⟨kept, (sofar.receiving.stored options holds within).rejects, fun short => by omega, ?_⟩
    rw [if_pos reached]
    rfl
  · rw [action] at rejects
    cases rejects

theorem RejectedBody.deliver (valid : waf.validate = none) (reliable : host.disk.Reliable)
    (action : waf.limitAction d = .reject) (body : List Delivery) :
    ∃ kept, RejectedBody waf d tx (total ++ delivered body) kept (deliver host waf d now body) := by
  induction body generalizing total held now with
  | nil => exact ⟨held, by simpa [delivered, Obsidian.deliver, run] using sofar⟩
  | cons w rest ih =>
    obtain ⟨kept, next⟩ := sofar.step valid reliable action w
    obtain ⟨final, done⟩ := ih next
    exact ⟨final, by simpa [delivered, deliver_cons, List.append_assoc] using done⟩

end

end

/-- What becomes of a body depends on its bytes alone, not on how it is cut into
writes and readers.  Processed in part, its first bytes are kept up to the limit,
and the body phase, if it is due, is evaluated exactly when the limit is reached.
Rejected, it interrupts the transaction exactly when the limit is reached, and
never more than the limit is kept. -/
theorem deliver_limit {host : Host} {waf : WAF} (valid : waf.validate = none)
    (reliable : host.disk.Reliable) (d : Direction) {tx : Transaction}
    (receiving : Receiving waf d [] tx) (body : List Delivery) :
    (waf.limitAction d = .processPartial →
      ((deliver host waf d tx body).bodyBuffer d).content =
        (delivered body).take (waf.bodyOptions d).limit.toNat ∧
      (deliver host waf d tx body).phases = tx.phases ++
        if (waf.bodyOptions d).limit ≤ (delivered body).length ∧ Due d.bodyPhase tx then
          [d.bodyPhase]
        else []) ∧
    (waf.limitAction d = .reject →
      (deliver host waf d tx body).interruption =
        (if (waf.bodyOptions d).limit ≤ (delivered body).length then
          some { status := d.status, action := str "deny" }
        else tx.interruption) ∧
      (((deliver host waf d tx body).bodyBuffer d).content.length : Int) ≤
        (waf.bodyOptions d).limit ∧
      ((delivered body).length < (waf.bodyOptions d).limit →
        ((deliver host waf d tx body).bodyBuffer d).content = delivered body)) := by
  refine ⟨fun action => ?_, fun action => ?_⟩
  · have done := (PartialBody.start valid receiving).deliver valid reliable action body
    exact ⟨done.holds.content, done.phases⟩
  · obtain ⟨kept, done⟩ := (RejectedBody.start valid receiving).deliver valid reliable action body
    have content := done.receiving.holds.content
    refine ⟨done.interruption, ?_, fun below => content.trans (done.whole below)⟩
    rw [content]
    exact done.receiving.within

def smallBodyStart (action : BodyLimitAction) : Transaction :=
  run .plain (smallBodyWAF action [])
    ((PoolObject.new .plain (smallBodyWAF action [])).newTransaction ⟨str "a", 0⟩ 1)
    [.processRequestHeaders]

theorem smallBodyStart_receiving (action : BodyLimitAction) :
    Receiving (smallBodyWAF action []) .request [] (smallBodyStart action) := by
  have empty : (smallBodyStart action).bodyBuffer .request =
      .new ((smallBodyWAF action []).bodyOptions .request) := by
    cases action <;> decide
  refine ⟨?_, ?_, ?_, by rw [empty]; rfl, by rw [empty]; exact BodyBuffer.new_holds _, ?_⟩ <;>
    cases action <;> decide

/-- Four bytes and more, once processed in part and once rejected. -/
theorem deliver_limit_split :
    ((deliver .plain (smallBodyWAF .processPartial []) .request (smallBodyStart .processPartial)
        [.write { bytes := str "ab" }, .read { reads := [str "c", str "de"] }]).bodyBuffer
          .request).content = str "abcd" ∧
    (deliver .plain (smallBodyWAF .reject []) .request (smallBodyStart .reject)
        [.write { bytes := str "ab" }, .read { reads := [str "c", str "de"] }]).interruption =
      some { status := 413, action := str "deny" } :=
  ⟨((deliver_limit rfl Host.plain_reliable .request (smallBodyStart_receiving .processPartial)
      _).1 rfl).1,
    ((deliver_limit rfl Host.plain_reliable .request (smallBodyStart_receiving .reject) _).2
      rfl).1⟩

end Obsidian
