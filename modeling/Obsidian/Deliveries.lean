import Obsidian.Phases

namespace Obsidian

open Obsidian.Data Relation

/-! # Deliveries

The four body writers seen as one: what they plan to store of the data handed to
them, what storing it on a reliable disk leaves in the buffer, and what processing
the stored body does.
-/

inductive Delivery where
  | write (b : Chunk)
  | read (r : Reader)

namespace Delivery

def bytes : Delivery → Bytes
  | .write b => b.bytes
  | .read r => r.reads.flatten

def known : Delivery → Option Nat
  | .write b => some b.bytes.length
  | .read r => if r.sized then some r.len else none

def call (d : Direction) : Delivery → Call
  | .write b => .writeBody d b
  | .read r => .readBodyFrom d r

def store (host : Host) (waf : WAF) (d : Direction) (w : Delivery) (writingBytes : Int)
    (runProcessBody : Bool) (tx : Transaction) : Transaction × Outcome :=
  match w with
  | .write b => storeSlice host waf d b.bytes writingBytes runProcessBody tx
  | .read r => storeCopy host waf d r writingBytes runProcessBody tx

theorem call_eq (host : Host) (waf : WAF) (d : Direction) (w : Delivery) (tx : Transaction) :
    Obsidian.call host waf tx (w.call d) =
      writeWith waf d w.known (w.store host waf d) tx := by
  cases w <;> rfl

theorem known_length {w : Delivery} {len : Nat} (known : w.known = some len) :
    len = w.bytes.length ∧ len ≤ maxAlloc := by
  cases w with
  | write b =>
    cases known
    exact ⟨rfl, b.bounded⟩
  | read r =>
    simp only [Delivery.known] at known
    split at known
    · next sized =>
        cases known
        exact ⟨rfl, r.bounded sized⟩
    · cases known

end Delivery

/-! ## Storing -/

section

variable {host : Host} (waf : WAF) {d : Direction} {tx : Transaction} {held : Bytes} {n : Int}
  (reliable : host.disk.Reliable) (holds : (tx.bodyBuffer d).Holds held)
  (fits : IsInt64 (tx.bodyBuffer d).options.limit)

include reliable holds fits

theorem storeSlice_holds {b : Bytes} (runProcessBody : Bool) (natural : 0 ≤ n) (covered : n ≤ b.length)
    (room : (held.length : Int) + n ≤ (tx.bodyBuffer d).options.limit) :
    ∃ buffer : BodyBuffer, buffer.Holds (held ++ b.take n.toNat) ∧
      buffer.options = (tx.bodyBuffer d).options ∧
      storeSlice host waf d b n runProcessBody tx =
        finishWrite host waf d runProcessBody n.toNat (tx.setBodyBuffer buffer d) := by
  have cut : (b.take n.toNat).length = n.toNat := by
    rw [List.length_take]
    omega
  obtain ⟨result, grown⟩ := BodyBuffer.write_holds reliable holds fits
    (show (held.length : Int) + (b.take n.toNat).length ≤ _ by omega)
  have options := (tx.bodyBuffer d).write_options host.disk (b.take n.toNat)
  simp only [storeSlice]
  rw [if_neg (by omega)]
  revert result grown options
  rcases (tx.bodyBuffer d).write host.disk (b.take n.toNat) with ⟨buffer, w, err⟩
  intro result grown options
  obtain ⟨rfl, rfl⟩ := Prod.mk.inj result
  rw [cut]
  exact ⟨buffer, grown, options, rfl⟩

theorem storeCopy_holds (r : Reader) (runProcessBody : Bool) (natural : 0 ≤ n)
    (room : (held.length : Int) + min (r.len : Int) n ≤ (tx.bodyBuffer d).options.limit) :
    ∃ buffer : BodyBuffer, buffer.Holds (held ++ r.reads.flatten.take n.toNat) ∧
      buffer.options = (tx.bodyBuffer d).options ∧
      storeCopy host waf d r n runProcessBody tx =
        match if n ≤ r.len then none else r.fails with
        | some err =>
          (tx.setBodyBuffer buffer d, .returned { written := min r.len n.toNat, err := some err })
        | none =>
          finishCopy host waf d runProcessBody (min r.len n.toNat) (tx.setBodyBuffer buffer d) := by
  obtain ⟨result, grown⟩ := copyN_holds reliable r holds fits natural room
  have options : (copyN host.disk (tx.bodyBuffer d) r n).1.options = (tx.bodyBuffer d).options :=
    copyN_keeps host.disk (P := fun after => after.options = (tx.bodyBuffer d).options)
      (fun after piece _ same => (after.write_options host.disk piece).trans same) r rfl
  simp only [storeCopy]
  revert result grown options
  rcases copyN host.disk (tx.bodyBuffer d) r n with ⟨buffer, w, err⟩
  intro result grown options
  obtain ⟨rfl, rfl⟩ := Prod.mk.inj result
  refine ⟨buffer, grown, options, ?_⟩
  cases (if n ≤ r.len then none else r.fails) <;> rfl

end

/-! ## Planning -/

section

variable {waf : WAF} {d : Direction} {tx : Transaction} {w : Delivery} {len : Nat}
  (short : 0 ≤ (tx.bodyBuffer d).length ∧ (tx.bodyBuffer d).length ≤ gib)
  (known : w.known = some len)

include short known

theorem planWrite_known :
    ¬ (d = .request ∧ wrap64 (maxInt64 - len) ≤ (tx.bodyBuffer d).length) ∧
      wrap64 ((tx.bodyBuffer d).length + len) = (tx.bodyBuffer d).length + len := by
  have bounded := (Delivery.known_length known).2
  simp only [maxAlloc] at bounded
  simp only [gib] at short
  simp only [maxInt64]
  rw [wrap64_eq_self (by simp only [IsInt64]; omega), wrap64_eq_self (by simp only [IsInt64]; omega)]
  exact ⟨by omega, rfl⟩

theorem planWrite_below (below : (tx.bodyBuffer d).length + len < tx.bodyLimit d) :
    planWrite waf d w.known tx = .store len false := by
  obtain ⟨noOverflow, sum⟩ := planWrite_known short known
  rw [known]
  simp only [planWrite, noOverflow, sum, Int.not_le.mpr below, if_false]

theorem planWrite_rejects (reached : tx.bodyLimit d ≤ (tx.bodyBuffer d).length + len)
    (action : waf.limitAction d = .reject) : planWrite waf d w.known tx = .reject := by
  obtain ⟨noOverflow, sum⟩ := planWrite_known short known
  rw [known]
  simp only [planWrite, noOverflow, sum, reached, if_false, if_true, action]

theorem planWrite_processPartial (reached : tx.bodyLimit d ≤ (tx.bodyBuffer d).length + len)
    (action : waf.limitAction d = .processPartial) :
    planWrite waf d w.known tx = .store (tx.bodyRoom d) true := by
  obtain ⟨noOverflow, sum⟩ := planWrite_known short known
  rw [known]
  simp only [planWrite, noOverflow, sum, reached, if_false, if_true, action]

end

theorem WAF.limit_range {waf : WAF} (valid : waf.validate = none) (d : Direction) :
    0 < (waf.bodyOptions d).limit ∧ (waf.bodyOptions d).limit ≤ gib := by
  have limits := WAF.validate_limits valid
  cases d with
  | request => exact limits.1
  | response => exact limits.2

theorem WAF.limit_isInt64 {waf : WAF} (valid : waf.validate = none) (d : Direction) :
    IsInt64 (waf.bodyOptions d).limit := by
  obtain ⟨positive, small⟩ := waf.limit_range valid d
  simp only [gib] at small
  simp only [IsInt64]
  omega

/-! ## Processing a stored body -/

section

variable {host : Host} {waf : WAF} {d : Direction} {tx : Transaction} {held : Bytes}

theorem processBody_idle (idle : ¬ Due d.bodyPhase tx) : (processBody host waf d tx).1 = tx := by
  cases d with
  | request =>
    simp only [processBody, processRequestBody]
    split
    · rfl
    · split
      · rfl
      · next fresh =>
          rw [if_pos fun headers => idle ⟨headers, by simpa using fresh⟩]
  | response =>
    simp only [processBody, processResponseBody]
    split
    · rfl
    · split
      · rfl
      · next fresh =>
          rw [if_pos fun headers => idle ⟨headers, by simpa using fresh⟩]

variable (waf) in
theorem processBody_evaluates (reliable : host.disk.Reliable) (running : tx.ruleEngine ≠ .off)
    (holds : (tx.bodyBuffer d).Holds held) (due : Due d.bodyPhase tx) :
    ∃ (buffer : BodyBuffer) (v : TransactionVariables), buffer.Holds held ∧
      (processBody host waf d tx).1 =
        (waf.engine host).eval d.bodyPhase { tx.setBodyBuffer buffer d with vars := v } := by
  cases d with
  | request =>
    obtain ⟨headers, fresh⟩ := due
    simp only [processBody, processRequestBody]
    rw [if_neg running, if_neg (by simp [fresh]), if_neg (not_not.mpr headers)]
    split
    · exact ⟨_, _, holds, rfl⟩
    · obtain ⟨v, prepared⟩ := prepareRequestBody_cases host waf tx
      rw [prepared]
      exact ⟨_, v, holds.reader, rfl⟩
  | response =>
    obtain ⟨headers, fresh⟩ := due
    simp only [processBody, processResponseBody, BodyBuffer.readAll_reliable reliable]
    rw [if_neg running, if_neg (by simp [fresh]), if_neg (not_not.mpr headers)]
    split
    · exact ⟨_, _, holds, rfl⟩
    · repeat' split
      all_goals exact ⟨_, _, holds.reader, rfl⟩

theorem eval_bodyLimit (tx : Transaction) :
    ((waf.engine host).eval d.bodyPhase tx).bodyLimit d = tx.bodyLimit d := by
  refine (eval_keeps (P := fun next => next.lastPhase = d.bodyPhase ∧
    next.bodyLimit d = tx.bodyLimit d) ⟨rfl, by cases d <;> rfl⟩ (fun step same => ?_)
    fun same => ?_).2
  · obtain ⟨last, same⟩ := same
    refine ⟨step.lastPhase.trans last, ?_⟩
    rcases step.body d with ⟨_, kept⟩ | ⟨early, _⟩
    · exact kept.trans same
    · rw [last] at early
      cases d <;> exact absurd early (by decide)
  · cases d <;> exact same

variable (waf) in
theorem processBody_phases (reliable : host.disk.Reliable) (running : tx.ruleEngine ≠ .off)
    (holds : (tx.bodyBuffer d).Holds held) :
    ((processBody host waf d tx).1.bodyBuffer d).Holds held ∧
      (processBody host waf d tx).1.bodyLimit d = tx.bodyLimit d ∧
      (processBody host waf d tx).1.phases =
        tx.phases ++ if Due d.bodyPhase tx then [d.bodyPhase] else [] := by
  by_cases due : Due d.bodyPhase tx
  · obtain ⟨buffer, v, kept, evaluated⟩ := processBody_evaluates waf reliable running holds due
    rw [evaluated, if_pos due, eval_bodyBuffer, eval_bodyLimit, Transaction.phases, eval_phases]
    refine ⟨?_, ?_, ?_⟩
    · cases d <;> exact kept
    · cases d <;> rfl
    · cases d <;> simp [Transaction.phases, Transaction.setBodyBuffer]
  · rw [processBody_idle due, if_neg due, List.append_nil]
    exact ⟨holds, rfl, rfl⟩

@[simp] theorem finishWrite_true (written : Nat) :
    (finishWrite host waf d true written tx).1 = (processBody host waf d tx).1 := rfl

@[simp] theorem finishWrite_false (written : Nat) :
    (finishWrite host waf d false written tx).1 = tx := rfl

theorem step_full (w : Delivery) (full : tx.bodyLimit d = (tx.bodyBuffer d).length) :
    step host waf tx (w.call d) = tx := by
  simp only [step]
  rw [Delivery.call_eq, writeWith, if_pos full]
  split
  · rfl
  · split <;> rfl

end

end Obsidian
