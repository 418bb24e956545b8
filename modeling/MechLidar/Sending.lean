import MechLidar.Http

/-!
# MechLidar.Sending

`send_all` (`http_client.cpp`) call by call, with its offset as the `size_t` that it is. A run is
what happens up to the last answer of `send`; the loop may then still be waiting.

* `sendLoop`: the calls of `send` and how the function ends
* `KernelAnswers`: no call is answered with more bytes than it passes
* `Contiguous`: each call begins where the accepted bytes end
* `Delivers`: what a run does
* `sendLoop_delivers`: every run does
* `sendAll_eq_sendLoop`: `sendAll` is the run in which the kernel takes what is left at the end
-/

namespace MechLidar

open Lib

/-- A `std::string`: its size is a `size_t`. -/
structure StdString where
  bytes : Bytes
  size_lt : bytes.length < 2 ^ 64

def StdString.size (data : StdString) : UInt64 := UInt64.ofNat data.bytes.length

theorem StdString.toNat_size (data : StdString) : data.size.toNat = data.bytes.length := by
  rw [size, UInt64.toNat_ofNat', Nat.mod_eq_of_lt data.size_lt]

/-- A call on `data.data() + offset`, and what it returns. -/
structure SendCall where
  offset : UInt64
  length : UInt64
  answer : SendAnswer

/-- What `send_all` throws for an answer. -/
def SendAnswer.fault : SendAnswer → Option HttpError
  | .failed errno => if errno = EINTR then none else some (.system ⟨errno, "send() failed"⟩)
  | .accepted n =>
    if n = 0 then some (.runtimeError (bytes "send() returned zero bytes")) else none

/-- The bytes that the kernel has taken. -/
def SendAnswer.count : SendAnswer → Nat
  | .failed _ => 0
  | .accepted n => n

/-- The loop with `sent` bytes behind it. It has no result while `send` has not returned. -/
def sendLoop (data : StdString) (sent : UInt64) :
    List SendAnswer → List SendCall × Option (Except HttpError Unit)
  | [] => ([], if sent < data.size then none else some (.ok ()))
  | answer :: answers =>
    if sent < data.size then
      let call : SendCall := ⟨sent, data.size - sent, answer⟩
      match answer with
      | .failed errno =>
        if errno = EINTR then
          let (calls, result) := sendLoop data sent answers
          (call :: calls, result)
        else ([call], some (.error (.system ⟨errno, "send() failed"⟩)))
      | .accepted n =>
        if n = 0 then ([call], some (.error (.runtimeError (bytes "send() returned zero bytes"))))
        else
          let (calls, result) := sendLoop data (sent + UInt64.ofNat n) answers
          (call :: calls, result)
    else ([], some (.ok ()))

/-- What the kernel took from the buffer, one call after the other. -/
def acceptedBytes (data : StdString) (calls : List SendCall) : Bytes :=
  calls.flatMap fun call => (data.bytes.drop call.offset.toNat).take call.answer.count

def acceptedCount (calls : List SendCall) : Nat := (calls.map fun call => call.answer.count).sum

def KernelAnswers (calls : List SendCall) : Prop :=
  ∀ call ∈ calls, call.answer.count ≤ call.length.toNat

instance (calls : List SendCall) : Decidable (KernelAnswers calls) :=
  inferInstanceAs (Decidable (∀ call ∈ calls, call.answer.count ≤ call.length.toNat))

def Contiguous (sent : Nat) : List SendCall → Prop
  | [] => True
  | call :: calls => call.offset.toNat = sent ∧ Contiguous (sent + call.answer.count) calls

structure Delivers (data : StdString) (answers : List SendAnswer) (calls : List SendCall)
    (result : Option (Except HttpError Unit)) : Prop where
  /-- At every moment. -/
  accepted : ∀ before, before <+: calls → acceptedBytes data before <+: data.bytes
  returned : result = some (.ok ()) → acceptedBytes data calls = data.bytes
  /-- A fault is thrown at once. -/
  thrown : ∀ before call after e, calls = before ++ call :: after → call.answer.fault = some e →
    after = [] ∧ result = some (.error e)
  /-- Nothing else is thrown. -/
  faulty : ∀ e, result = some (.error e) →
    ∃ before call, calls = before ++ [call] ∧ call.answer.fault = some e
  inRange : ∀ call ∈ calls, call.offset.toNat < data.bytes.length ∧
    call.offset.toNat + call.length.toNat = data.bytes.length
  successes : (calls.filter fun call => 0 < call.answer.count).length ≤ data.bytes.length
  /-- The answers are taken in their order, and all of them while there is no result. -/
  inOrder : calls.map SendCall.answer <+: answers
  waiting : result = none → calls.map SendCall.answer = answers

/-! ## Contiguous calls -/

theorem Contiguous.before {sent : Nat} {calls before : List SendCall} (h : Contiguous sent calls)
    (hbefore : before <+: calls) : Contiguous sent before := by
  induction before generalizing sent calls with
  | nil => trivial
  | cons call before ih =>
    obtain ⟨after, rfl⟩ := hbefore
    exact ⟨h.1, ih h.2 ⟨after, rfl⟩⟩

theorem Contiguous.acceptedBytes_eq {sent : Nat} {calls : List SendCall}
    (h : Contiguous sent calls) (data : StdString) :
    acceptedBytes data calls = (data.bytes.drop sent).take (acceptedCount calls) := by
  induction calls generalizing sent with
  | nil => simp [acceptedBytes, acceptedCount]
  | cons call calls ih =>
    obtain ⟨hoffset, hrest⟩ := h
    have ih := ih hrest
    simp only [acceptedBytes, acceptedCount, List.flatMap_cons, List.map_cons,
      List.sum_cons] at ih ⊢
    rw [ih, hoffset, List.take_add, List.drop_drop]

theorem successes_le (calls : List SendCall) :
    (calls.filter fun call => 0 < call.answer.count).length ≤ acceptedCount calls := by
  induction calls with
  | nil => simp
  | cons call calls ih =>
    simp only [acceptedCount, List.map_cons, List.sum_cons, List.filter_cons] at ih ⊢
    split
    · next hpos =>
      simp only [decide_eq_true_eq] at hpos
      simp only [List.length_cons]
      omega
    · omega

/-! ## Runs -/

/-- The runs of the loop. An interrupted call is one that takes no byte. -/
inductive Sends (data : StdString) :
    UInt64 → List SendAnswer → List SendCall → Option (Except HttpError Unit) → Prop where
  | done {sent : UInt64} {answers : List SendAnswer} :
    ¬ sent < data.size → Sends data sent answers [] (some (.ok ()))
  | wait {sent : UInt64} : sent < data.size → Sends data sent [] [] none
  | throw {sent : UInt64} {answer : SendAnswer} {e : HttpError} (answers : List SendAnswer) :
    sent < data.size → answer.fault = some e →
    Sends data sent (answer :: answers) [⟨sent, data.size - sent, answer⟩] (some (.error e))
  | again {sent : UInt64} {answer : SendAnswer} {answers : List SendAnswer} {calls : List SendCall}
      {result : Option (Except HttpError Unit)} :
    sent < data.size → answer.fault = none →
    Sends data (sent + UInt64.ofNat answer.count) answers calls result →
    Sends data sent (answer :: answers) (⟨sent, data.size - sent, answer⟩ :: calls) result

theorem sends_sendLoop (data : StdString) (sent : UInt64) (answers : List SendAnswer) :
    Sends data sent answers (sendLoop data sent answers).1 (sendLoop data sent answers).2 := by
  fun_induction sendLoop data sent answers with
  | case1 sent =>
    split
    · next hlt => exact .wait hlt
    · next hge => exact .done hge
  | case2 sent answers hlt calls result heq call ih =>
    rw [heq] at ih
    refine .again hlt (by simp [SendAnswer.fault]) ?_
    simpa [SendAnswer.count] using ih
  | case3 sent answers hlt errno hne => exact .throw answers hlt (by simp [SendAnswer.fault, hne])
  | case4 sent answers hlt => exact .throw answers hlt (by simp [SendAnswer.fault])
  | case5 sent answers hlt n hn calls result heq call ih =>
    rw [heq] at ih
    exact .again hlt (by simp [SendAnswer.fault, hn]) ih
  | case6 sent answer answers hge => exact .done hge

section Sends

variable {data : StdString} {sent : UInt64} {answers : List SendAnswer} {calls : List SendCall}
  {result : Option (Except HttpError Unit)}

theorem sendCall_inRange (h : sent < data.size) :
    sent.toNat < data.bytes.length ∧
      sent.toNat + (data.size - sent).toNat = data.bytes.length := by
  have hlt := UInt64.lt_iff_toNat_lt.1 h
  have hsub := UInt64.toNat_sub_of_le data.size sent (UInt64.le_of_lt h)
  rw [StdString.toNat_size] at hlt hsub
  omega

theorem Sends.inRange (h : Sends data sent answers calls result) :
    ∀ call ∈ calls, call.offset.toNat < data.bytes.length ∧
      call.offset.toNat + call.length.toNat = data.bytes.length := by
  induction h with
  | done _ => simp
  | wait _ => simp
  | throw _ hlt _ =>
    simp only [List.forall_mem_singleton]
    exact sendCall_inRange hlt
  | again hlt _ _ ih =>
    simp only [List.forall_mem_cons]
    exact ⟨sendCall_inRange hlt, ih⟩

/-- No addition to the offset overflows. -/
theorem toNat_advance {n : Nat} (hlt : sent < data.size) (hn : n ≤ (data.size - sent).toNat) :
    (sent + UInt64.ofNat n).toNat = sent.toNat + n := by
  have hrange := sendCall_inRange hlt
  have hsize := data.size_lt
  rw [UInt64.toNat_add, UInt64.toNat_ofNat', Nat.mod_eq_of_lt (show n < 2 ^ 64 by omega),
    Nat.mod_eq_of_lt (by omega)]

theorem Sends.contiguous (h : Sends data sent answers calls result) (hk : KernelAnswers calls)
    (hsent : sent.toNat ≤ data.bytes.length) :
    Contiguous sent.toNat calls ∧ sent.toNat + acceptedCount calls ≤ data.bytes.length ∧
      (result = some (.ok ()) → sent.toNat + acceptedCount calls = data.bytes.length) := by
  induction h with
  | done hge =>
    rw [UInt64.lt_iff_toNat_lt, StdString.toNat_size] at hge
    simp only [Contiguous, acceptedCount, List.map_nil, List.sum_nil, true_and]
    omega
  | wait _ => simpa [Contiguous, acceptedCount] using hsent
  | throw answers hlt _ =>
    have hcount := hk _ List.mem_cons_self
    have hrange := sendCall_inRange hlt
    simp only [Contiguous, acceptedCount, List.map_cons, List.map_nil, List.sum_cons, List.sum_nil,
      and_true, true_and, Option.some.injEq, reduceCtorEq, false_implies]
    simp only at hcount
    omega
  | again hlt _ _ ih =>
    have hcount := hk _ List.mem_cons_self
    simp only at hcount
    have hrange := sendCall_inRange hlt
    have hadvance := toNat_advance hlt hcount
    obtain ⟨hcontiguous, hle, hall⟩ := ih (fun call hcall => hk call (List.mem_cons_of_mem _ hcall))
      (by omega)
    rw [hadvance] at hcontiguous hle hall
    simp only [acceptedCount, List.map_cons, List.sum_cons] at hle hall ⊢
    rw [← Nat.add_assoc]
    exact ⟨⟨rfl, hcontiguous⟩, hle, hall⟩

theorem Sends.thrown (h : Sends data sent answers calls result) {before after : List SendCall}
    {call : SendCall} {e : HttpError} (hcalls : calls = before ++ call :: after)
    (hfault : call.answer.fault = some e) : after = [] ∧ result = some (.error e) := by
  induction h generalizing before with
  | done _ => simp at hcalls
  | wait _ => simp at hcalls
  | throw _ _ hthrown =>
    cases before with
    | nil =>
      cases hcalls
      cases hthrown.symm.trans hfault
      exact ⟨rfl, rfl⟩
    | cons first before => simp at hcalls
  | again _ hnone _ ih =>
    cases before with
    | nil =>
      cases hcalls
      cases hnone.symm.trans hfault
    | cons first before =>
      cases hcalls
      exact ih rfl

theorem Sends.faulty (h : Sends data sent answers calls result) {e : HttpError}
    (hresult : result = some (.error e)) :
    ∃ before call, calls = before ++ [call] ∧ call.answer.fault = some e := by
  induction h with
  | done _ => cases hresult
  | wait _ => cases hresult
  | throw _ _ hthrown =>
    cases hresult
    exact ⟨[], _, rfl, hthrown⟩
  | again _ _ _ ih =>
    obtain ⟨before, call, hcalls, hfault⟩ := ih hresult
    exact ⟨_ :: before, call, by rw [hcalls]; rfl, hfault⟩

theorem Sends.inOrder (h : Sends data sent answers calls result) :
    calls.map SendCall.answer <+: answers ∧
      (result = none → calls.map SendCall.answer = answers) := by
  induction h with
  | done _ => simp
  | wait _ => simp
  | throw _ _ _ => simp
  | again _ _ _ ih =>
    obtain ⟨hsome, hall⟩ := ih
    simp only [List.map_cons, List.prefix_cons_inj, List.cons.injEq, true_and]
    exact ⟨hsome, hall⟩

theorem drop_ne_nil (h : sent < data.size) : data.bytes.drop sent.toNat ≠ [] := by
  have hlt := (sendCall_inRange h).1
  intro hnil
  have hle := List.drop_eq_nil_iff.1 hnil
  omega

theorem sendAll_nil (answers : List SendAnswer) : sendAll [] answers = ([], .ok ()) := by
  cases answers with
  | nil => rfl
  | cons answer answers => rfl

/-- `sendAll` leaves out where the calls begin, and has the kernel take what is left in the end. -/
theorem Sends.sendAll_eq (h : Sends data sent answers calls result) (hk : KernelAnswers calls) :
    sendAll (data.bytes.drop sent.toNat) answers =
      (result.map fun r => (acceptedBytes data calls, r)).getD
        (data.bytes.drop sent.toNat, .ok ()) := by
  induction h with
  | done hge =>
    rw [UInt64.lt_iff_toNat_lt, StdString.toNat_size, not_lt] at hge
    rw [List.drop_eq_nil_of_le hge, sendAll_nil]
    rfl
  | wait _ => rfl
  | @throw sent answer e answers hlt hfault =>
    unfold sendAll
    rw [if_neg (drop_ne_nil hlt)]
    cases answer with
    | failed errno =>
      simp only [SendAnswer.fault, Option.ite_none_left_eq_some, Option.some.injEq] at hfault
      obtain ⟨hne, rfl⟩ := hfault
      simp [hne, acceptedBytes, SendAnswer.count]
    | accepted n =>
      simp only [SendAnswer.fault, Option.ite_none_right_eq_some, Option.some.injEq] at hfault
      obtain ⟨rfl, rfl⟩ := hfault
      simp [acceptedBytes, SendAnswer.count]
  | @again sent answer answers calls result hlt hnone _ ih =>
    have hcount := hk _ List.mem_cons_self
    simp only at hcount
    have ih := ih fun call hcall => hk call (List.mem_cons_of_mem _ hcall)
    rw [toNat_advance hlt hcount, ← List.drop_drop] at ih
    unfold sendAll
    rw [if_neg (drop_ne_nil hlt)]
    cases answer with
    | failed errno =>
      simp only [SendAnswer.fault, ite_eq_left_iff, reduceCtorEq, imp_false, not_not] at hnone
      subst hnone
      simp only [SendAnswer.count, List.drop_zero] at ih
      simp only [if_true, ih, acceptedBytes, List.flatMap_cons, SendAnswer.count, List.take_zero,
        List.nil_append]
    | accepted n =>
      simp only [SendAnswer.fault, ite_eq_right_iff, reduceCtorEq, imp_false] at hnone
      simp only [SendAnswer.count] at ih
      simp only [if_neg hnone, ih, acceptedBytes, List.flatMap_cons, SendAnswer.count]
      cases result with
      | none => simp
      | some r => rfl

end Sends

/-- Every run of `send_all`, as long as the kernel counts right. -/
theorem sendLoop_delivers (data : StdString) (answers : List SendAnswer)
    (hk : KernelAnswers (sendLoop data 0 answers).1) :
    Delivers data answers (sendLoop data 0 answers).1 (sendLoop data 0 answers).2 := by
  have h := sends_sendLoop data 0 answers
  obtain ⟨hcontiguous, hle, hall⟩ := h.contiguous hk (Nat.zero_le _)
  have htaken : ∀ before, before <+: (sendLoop data 0 answers).1 →
      acceptedBytes data before = data.bytes.take (acceptedCount before) :=
    fun before hbefore => (hcontiguous.before hbefore).acceptedBytes_eq data
  simp only [UInt64.toNat_zero, Nat.zero_add] at hle hall
  exact {
    accepted := by
      intro before hbefore
      rw [htaken before hbefore]
      exact List.take_prefix _ _
    returned := by
      intro hresult
      rw [htaken _ (List.prefix_refl _), hall hresult, List.take_length]
    thrown := fun before call after e => h.thrown
    faulty := fun e => h.faulty
    inRange := h.inRange
    successes := (successes_le _).trans hle
    inOrder := h.inOrder.1
    waiting := h.inOrder.2 }

theorem sendAll_eq_sendLoop {data : StdString} {answers : List SendAnswer}
    (hk : KernelAnswers (sendLoop data 0 answers).1) :
    sendAll data.bytes answers =
      ((sendLoop data 0 answers).2.map fun r =>
        (acceptedBytes data (sendLoop data 0 answers).1, r)).getD (data.bytes, .ok ()) :=
  (sends_sendLoop data 0 answers).sendAll_eq hk

/-- A request in three pieces, with an interruption. -/
theorem sendLoop_delivers_pieces :
    let data : StdString := ⟨bytes "GET /", by decide⟩
    let run := sendLoop data 0 [.accepted 2, .failed EINTR, .accepted 1, .accepted 2]
    run.2 = some (.ok ()) ∧ acceptedBytes data run.1 = bytes "GET /" := by
  intro data run
  have hresult : run.2 = some (.ok ()) := rfl
  have hk : KernelAnswers run.1 := by decide
  exact ⟨hresult, (sendLoop_delivers data _ hk).returned hresult⟩

end MechLidar
