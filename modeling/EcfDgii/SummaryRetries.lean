import EcfDgii.Summaries

/-!
Retries of a summary (`EcfClient::sendRfce`) with the provider of numbers a
client has by default (`MemorySequenceProvider`).

`retryLoop` is the loop over any way of making one attempt; `sendRfceModel` is it
over the transport, and `Recorder` runs it with the replies given and writes down
what is transmitted.  Whatever the replies, there are at most three transmissions,
each of a summary that has passed the validation, and they differ in the number
(`sent_within`).  The number of a retry is one of a document of type 31 whatever
the summary is: `retries_valid_iff` says that the property holds only where there
is no retry.
-/

set_option autoImplicit false

namespace EcfDgii.SummaryRetries

open EcfDgii.Text EcfDgii.Timestamps EcfDgii.Documents EcfDgii.DgiiReplies EcfDgii.Engine
open EcfDgii.Transport EcfDgii.Transmission EcfDgii.DirectSending EcfDgii.Summaries

/-! ## The loop -/

section Loop

variable {m : Type → Type} [Monad m] {γ : Type}

/-- A rejection that leaves the number unused. -/
def reusable (response : RfceRecepcionResponse) : Bool :=
  response.estado = "Rechazado" && !response.secuenciaUtilizada

/-- The loop of `EcfClient::sendRfce`, with so many retries left. -/
def retryLoop (attempt : Rfce γ → m RfceRecepcionResponse) (getNext : ℕ → Rfce γ → m String)
    (autoRetry : Bool) : ℕ → Rfce γ → m (RfceRecepcionResponse × Rfce γ)
  | retries, rfce => do
    let response ← attempt rfce
    match retries with
    | 0 => pure (response, rfce)
    | left + 1 =>
      if autoRetry && reusable response then
        let eNcf ← getNext left rfce
        retryLoop attempt getNext autoRetry left { rfce with eNcf := eNcf }
      else pure (response, rfce)

end Loop

/-- One attempt over the transport. -/
def transportAttempt {γ : Type} (ext : Externals) (lib : RfceFunctions γ) (client : EcfClient)
    (rfce : Rfce γ) : Procedure RfceRecepcionResponse := do
  let errors := lib.validateRfce rfce
  .raise (if errors = [] then .ok () else .error (validationMessage errors))
  let xml ← .raise (lib.serialize rfce)
  let signedXml ← .raise (← signXml client.signer xml rfce.rncEmisor)
  sendRfce ext client signedXml ⟨rfce.rncEmisor, rfce.eNcf⟩

/-- What `/api/ecf/send-rfce` runs is the loop over the transport. -/
theorem sendRfceModel_eq_loop {γ : Type} (ext : Externals) (lib : RfceFunctions γ)
    (client : EcfClient) (autoRetry : Bool) (getNext : ℕ → String) (retries : ℕ) (rfce : Rfce γ) :
    sendRfceModel ext lib client autoRetry getNext retries rfce =
      retryLoop (transportAttempt ext lib client) (fun left _ => return getNext left) autoRetry
        retries rfce := by
  induction retries generalizing rfce with
  | zero =>
    unfold sendRfceModel retryLoop transportAttempt
    simp only [Programs.Program.bind_assoc]
  | succ left ih =>
    rw [sendRfceModel, retryLoop]
    simp only [transportAttempt, Programs.Program.bind_assoc, Programs.Program.pure_eq,
      Programs.Program.bind_done, ih, reusable, Bool.and_assoc]
    rfl

/-! ## Transmissions -/

/-- What `EcfClient::sendRfce` hands to the transport, and the summary it was
made from. -/
structure Transmission where
  rfce : Summary
  xml : String
  signedXml : String
  fileName : EcfFileName

/-- What a client and its surroundings decide: the `n`-th signature and the
`n`-th reply are those for the transmission after `n` others. -/
structure Connection where
  autoRetryOnReuseableSequence : Bool
  signer : Option (ℕ → String → String → Except String String) := none
  schemaValidator : Option (String → List String) := none
  reply : ℕ → Except String RfceRecepcionResponse

/-- The numbers handed out for each issuer, and what was transmitted. -/
structure Memory where
  sequences : String → ℕ
  sent : List Transmission := []

/-- A computation that may throw and leaves a memory. -/
abbrev Recorder := ExceptT String (StateM Memory)

def Connection.sign (c : Connection) (n : ℕ) (xml rncEmisor : String) : Except String String :=
  match c.signer with
  | some signXml => signXml n xml rncEmisor
  | none => .ok xml

def Connection.schemaErrors (c : Connection) (signedXml : String) : List String :=
  match c.schemaValidator with
  | some validate => validate signedXml
  | none => []

/-- An attempt until the transport is called. -/
def prepare (c : Connection) (n : ℕ) (rfce : Summary) : Except String Transmission := do
  if validateRfce rfce ≠ [] then throw (validationMessage (validateRfce rfce))
  let xml := serialize rfce
  let signedXml ← c.sign n xml rfce.rncEmisor
  if c.schemaErrors signedXml ≠ [] then throw (validationMessage (c.schemaErrors signedXml))
  return ⟨rfce, xml, signedXml, ⟨rfce.rncEmisor, rfce.eNcf⟩⟩

/-- One attempt. -/
def attempt (c : Connection) (rfce : Summary) : Recorder RfceRecepcionResponse := fun memory =>
  match prepare c memory.sent.length rfce with
  | .error what => (.error what, memory)
  | .ok transmission =>
    (c.reply memory.sent.length, { memory with sent := memory.sent ++ [transmission] })

/-- The text of `MemorySequenceProvider::getNext`. -/
def number (seq : ℕ) : String := String.ofList ("E31".toList ++ padded 10 seq)

/-- `MemorySequenceProvider::getNext`. -/
def getNext (rncEmisor : String) : Recorder String := fun memory =>
  let seq := memory.sequences rncEmisor + 1
  (.ok (number seq), { memory with sequences := Function.update memory.sequences rncEmisor seq })

/-- The loop of a client with the provider. -/
def loop (c : Connection) : ℕ → Summary → Recorder (RfceRecepcionResponse × Summary) :=
  retryLoop (attempt c) (fun _ rfce => getNext rfce.rncEmisor) c.autoRetryOnReuseableSequence

/-- `EcfClient::sendRfce`. -/
def sendRfce (c : Connection) (rfce : Summary) : Recorder (RfceRecepcionResponse × Summary) :=
  loop c 2 rfce

/-- What a call transmits, with a provider that has handed out some numbers. -/
def transmissions (c : Connection) (sequences : String → ℕ) (rfce : Summary) :
    List Transmission :=
  (sendRfce c rfce ⟨sequences, []⟩).2.sent

/-! ## What a call transmits -/

variable {c : Connection} {rfce : Summary} {w : Memory} {n : ℕ}

/-- A summary gets to the transport: it is valid, it is signed, and the schema has
nothing to say of it. -/
def Passes (c : Connection) (n : ℕ) (rfce : Summary) : Prop :=
  validateRfce rfce = [] ∧
    ∃ signedXml, c.sign n (serialize rfce) rfce.rncEmisor = .ok signedXml ∧
      c.schemaErrors signedXml = []

/-- A transmission of a summary, validated, under some number. -/
structure Proper (rfce : Summary) (t : Transmission) : Prop where
  validated : validateRfce t.rfce = []
  renumbers : t.rfce = renumbered rfce t.rfce.eNcf
  serialized : t.xml = serialize t.rfce
  named : t.fileName = ⟨rfce.rncEmisor, t.rfce.eNcf⟩

theorem prepare_ok {t : Transmission} (prepared : prepare c n rfce = .ok t) :
    Passes c n rfce ∧ t.rfce = rfce ∧ Proper rfce t := by
  unfold prepare at prepared
  by_cases valid : validateRfce rfce = []
  · simp only [valid, ne_eq, not_true_eq_false, if_false] at prepared
    cases signed : c.sign n (serialize rfce) rfce.rncEmisor with
    | error what =>
      rw [signed] at prepared
      exact nomatch prepared
    | ok signedXml =>
      rw [signed] at prepared
      by_cases clean : c.schemaErrors signedXml = []
      · have same : (⟨rfce, serialize rfce, signedXml, ⟨rfce.rncEmisor, rfce.eNcf⟩⟩ :
            Transmission) = t := by
          simpa [clean, bind, Except.bind, pure, Except.pure] using prepared
        subst same
        exact ⟨⟨valid, signedXml, signed, clean⟩, rfl, valid, rfl, rfl, rfl⟩
      · simp [clean, bind, Except.bind, throw, throwThe, MonadExceptOf.throw] at prepared
  · simp [valid, bind, Except.bind, throw, throwThe, MonadExceptOf.throw] at prepared

theorem prepare_of_passes (passes : Passes c n rfce) : ∃ t, prepare c n rfce = .ok t := by
  obtain ⟨valid, signedXml, signed, clean⟩ := passes
  refine ⟨⟨rfce, serialize rfce, signedXml, ⟨rfce.rncEmisor, rfce.eNcf⟩⟩, ?_⟩
  unfold prepare
  simp [valid, signed, clean, bind, Except.bind, pure, Except.pure]

/-- The memory after a transmission, and after the number of a retry. -/
def Memory.sending (w : Memory) (t : Transmission) : Memory := { w with sent := w.sent ++ [t] }

def Memory.counting (w : Memory) (rncEmisor : String) : Memory :=
  { w with sequences :=
      Function.update w.sequences rncEmisor (w.sequences rncEmisor + 1) }

/-- The number of a retry. -/
def Memory.next (w : Memory) (rncEmisor : String) : String :=
  number (w.sequences rncEmisor + 1)

/-- Whether the reply to the `n`-th transmission makes the client try again. -/
def Reusable (c : Connection) (n : ℕ) : Prop :=
  c.autoRetryOnReuseableSequence = true ∧ ∃ response, c.reply n = .ok response ∧
    reusable response = true

/-- What the loop does to the memory: nothing when the summary does not pass, one
transmission, or one and what the loop does with the next number. -/
inductive Course (c : Connection) : ℕ → Summary → Memory → Memory → Prop
  | refused {left : ℕ} {rfce : Summary} {w : Memory} (fails : ¬ Passes c w.sent.length rfce) :
      Course c left rfce w w
  | ends {left : ℕ} {rfce : Summary} {w : Memory} {t : Transmission}
      (prepared : prepare c w.sent.length rfce = .ok t)
      (final : left = 0 ∨ ¬ Reusable c w.sent.length) : Course c left rfce w (w.sending t)
  | retries {left : ℕ} {rfce : Summary} {w w' : Memory} {t : Transmission}
      (prepared : prepare c w.sent.length rfce = .ok t) (again : Reusable c w.sent.length)
      (rest : Course c left (renumbered rfce (w.next rfce.rncEmisor))
        ((w.sending t).counting rfce.rncEmisor) w') : Course c (left + 1) rfce w w'

theorem Recorder.bind_eq {α β : Type} (x : Recorder α) (k : α → Recorder β) (w : Memory) :
    (x >>= k) w =
      match x w with
      | (.error what, w') => (.error what, w')
      | (.ok a, w') => k a w' := by
  have unfolded : (x >>= k) w = StateT.bind x (ExceptT.bindCont k) w := rfl
  rw [unfolded]
  unfold StateT.bind
  rcases x w with ⟨_ | a, w'⟩ <;> rfl

theorem Recorder.pure_eq {α : Type} (a : α) (w : Memory) : (pure a : Recorder α) w = (.ok a, w) :=
  rfl

theorem attempt_refused {what : String} (failed : prepare c w.sent.length rfce = .error what) :
    attempt c rfce w = (.error what, w) := by
  simp only [attempt, failed]

theorem attempt_sent {t : Transmission} (prepared : prepare c w.sent.length rfce = .ok t) :
    attempt c rfce w = (c.reply w.sent.length, w.sending t) := by
  simp only [attempt, prepared, Memory.sending]

/-- An error of the preparation ends the loop before anything is sent. -/
theorem loop_refused (left : ℕ) (fails : ¬ Passes c w.sent.length rfce) :
    (loop c left rfce w).2 = w := by
  cases prepared : prepare c w.sent.length rfce with
  | ok t => exact absurd (prepare_ok prepared).1 fails
  | error what =>
    unfold loop
    rw [retryLoop, Recorder.bind_eq, attempt_refused prepared]

/-- The last attempt, or a reply that is no reason to try again. -/
theorem loop_ends {left : ℕ} {t : Transmission} (prepared : prepare c w.sent.length rfce = .ok t)
    (final : left = 0 ∨ ¬ Reusable c w.sent.length) :
    (loop c left rfce w).2 = w.sending t := by
  unfold loop
  rw [retryLoop, Recorder.bind_eq, attempt_sent prepared]
  cases replied : c.reply w.sent.length with
  | error what => rfl
  | ok response =>
    cases left with
    | zero => rfl
    | succ left =>
      have stops : (c.autoRetryOnReuseableSequence && reusable response) = false := by
        by_contra goes
        rw [Bool.not_eq_false, Bool.and_eq_true] at goes
        exact final.elim nofun fun never => never ⟨goes.1, response, replied, goes.2⟩
      simp only [stops, Bool.false_eq_true, if_false, Recorder.pure_eq]

/-- A reusable rejection goes on with the next number. -/
theorem loop_retries {left : ℕ} {t : Transmission}
    (prepared : prepare c w.sent.length rfce = .ok t) (again : Reusable c w.sent.length) :
    (loop c (left + 1) rfce w).2 = (loop c left (renumbered rfce (w.next rfce.rncEmisor))
      ((w.sending t).counting rfce.rncEmisor)).2 := by
  obtain ⟨auto, response, replied, rejected⟩ := again
  have goes : (c.autoRetryOnReuseableSequence && reusable response) = true := by
    rw [auto, rejected, Bool.and_self]
  conv_lhs => unfold loop
  rw [retryLoop, Recorder.bind_eq, attempt_sent prepared, replied]
  simp only [goes, if_true, Recorder.bind_eq, getNext]
  rfl

/-- The loop takes one of these courses. -/
theorem loop_course (left : ℕ) : Course c left rfce w (loop c left rfce w).2 := by
  induction left generalizing rfce w with
  | zero =>
    by_cases passes : Passes c w.sent.length rfce
    · obtain ⟨t, prepared⟩ := prepare_of_passes passes
      rw [loop_ends prepared (.inl rfl)]
      exact .ends prepared (.inl rfl)
    · rw [loop_refused 0 passes]
      exact .refused passes
  | succ left ih =>
    by_cases passes : Passes c w.sent.length rfce
    · obtain ⟨t, prepared⟩ := prepare_of_passes passes
      by_cases again : Reusable c w.sent.length
      · rw [loop_retries prepared again]
        exact .retries prepared again ih
      · rw [loop_ends prepared (.inr again)]
        exact .ends prepared (.inr again)
    · rw [loop_refused _ passes]
      exact .refused passes

/-- **Within its bounds.** At most one transmission for every attempt, each of the
summary under some number, and validated. -/
theorem Course.sent_within {left : ℕ} {w' : Memory} (course : Course c left rfce w w') :
    ∃ later, w'.sent = w.sent ++ later ∧ later.length ≤ left + 1 ∧ ∀ t ∈ later, Proper rfce t := by
  induction course with
  | refused fails => exact ⟨[], (List.append_nil _).symm, Nat.zero_le _, by simp⟩
  | @ends left rfce w t prepared final =>
    refine ⟨[t], rfl, by simp, fun t' member => ?_⟩
    rw [List.mem_singleton.mp member]
    exact (prepare_ok prepared).2.2
  | @retries left rfce w w' t prepared again rest ih =>
    obtain ⟨later, same, few, proper⟩ := ih
    refine ⟨t :: later, ?_, ?_, fun t' member => ?_⟩
    · rw [same]
      simp [Memory.counting, Memory.sending]
    · simpa using few
    · rcases List.mem_cons.mp member with rfl | member
      · exact (prepare_ok prepared).2.2
      · obtain ⟨validated, renumbers, serialized, named⟩ := proper t' member
        exact ⟨validated, renumbers, serialized, named⟩

/-- What passes is sent. -/
theorem loop_sends {t : Transmission} (left : ℕ)
    (prepared : prepare c w.sent.length rfce = .ok t) : t ∈ (loop c left rfce w).2.sent := by
  by_cases final : left = 0 ∨ ¬ Reusable c w.sent.length
  · rw [loop_ends prepared final]
    exact List.mem_append_right _ (List.mem_singleton_self t)
  · rw [not_or, not_not] at final
    obtain ⟨before, rfl⟩ := Nat.exists_eq_succ_of_ne_zero final.1
    rw [Nat.succ_eq_add_one, loop_retries prepared final.2]
    obtain ⟨later, same, -⟩ := (@loop_course c (renumbered rfce (w.next rfce.rncEmisor))
      ((w.sending t).counting rfce.rncEmisor) before).sent_within
    rw [same]
    exact List.mem_append_left _ (List.mem_append_right _ (List.mem_singleton_self t))

/-! ## The property -/

/-- **Valid retries.** -/
structure RetriesValid (c : Connection) (sequences : String → ℕ) (rfce : Summary) : Prop where
  few : (transmissions c sequences rfce).length ≤ 3
  validated : ∀ t ∈ transmissions c sequences rfce, validateRfce t.rfce = []
  alike : ∀ t ∈ transmissions c sequences rfce, t.rfce = renumbered rfce t.rfce.eNcf ∧
    t.xml = serializeHead rfce ++ el "eNCF" t.rfce.eNcf ++ serializeTail rfce
  distinct : ((transmissions c sequences rfce).map fun t => t.rfce.eNcf).Nodup
  own : ∀ t ∈ transmissions c sequences rfce,
    startsWith t.rfce.eNcf ("E" ++ t.rfce.content.tipoeCF) = true

/-- A first transmission that is followed by another. -/
structure Retried (c : Connection) (sequences : String → ℕ) (rfce : Summary) : Prop where
  again : Reusable c 0
  passes : Passes c 1 (renumbered rfce (number (sequences rfce.rncEmisor + 1)))

/-- The numbers of the provider are those of type 31. -/
theorem number_other (seq : ℕ) : startsWith (number seq) "E32" = false := by
  have opening : "E31".toList = ['E', '3', '1'] := by simp
  have other : "E32".toList = ['E', '3', '2'] := by simp
  rw [startsWith, number, opening, other, String.toList_ofList]
  rfl

/-- All that is transmitted is proper. -/
theorem transmissions_proper (c : Connection) (sequences : String → ℕ) (rfce : Summary) :
    (transmissions c sequences rfce).length ≤ 3 ∧
      ∀ t ∈ transmissions c sequences rfce, Proper rfce t := by
  obtain ⟨later, same, few, proper⟩ := (@loop_course c rfce ⟨sequences, []⟩ 2).sent_within
  unfold transmissions sendRfce
  rw [same, List.nil_append]
  exact ⟨few, proper⟩

section

variable {sequences : String → ℕ}

/-- Nothing is sent of a summary that does not pass. -/
theorem transmissions_refused (fails : ¬ Passes c 0 rfce) :
    transmissions c sequences rfce = [] := by
  unfold transmissions sendRfce
  rw [loop_refused 2 (w := ⟨sequences, []⟩) fails]

/-- A summary that passes is sent first, and alone unless it is tried again. -/
theorem transmissions_single {t : Transmission} (prepared : prepare c 0 rfce = .ok t)
    (once : ¬ Retried c sequences rfce) : transmissions c sequences rfce = [t] := by
  unfold transmissions sendRfce
  by_cases again : Reusable c 0
  · have refused : ¬ Passes c 1 (renumbered rfce (number (sequences rfce.rncEmisor + 1))) :=
      fun passes => once ⟨again, passes⟩
    rw [loop_retries (w := ⟨sequences, []⟩) prepared again, loop_refused 1]
    · rfl
    · exact refused
  · rw [loop_ends (w := ⟨sequences, []⟩) prepared (.inr again)]
    rfl

/-- A summary that passes is sent. -/
theorem first_sent {t : Transmission} (prepared : prepare c 0 rfce = .ok t) :
    t ∈ transmissions c sequences rfce := by
  unfold transmissions sendRfce
  exact loop_sends (w := ⟨sequences, []⟩) 2 prepared

/-- A retry is a transmission under a number of the provider. -/
theorem retry_sent (passes : Passes c 0 rfce) (retried : Retried c sequences rfce) :
    ∃ t ∈ transmissions c sequences rfce,
      t.rfce = renumbered rfce (number (sequences rfce.rncEmisor + 1)) := by
  obtain ⟨first, prepared⟩ := prepare_of_passes passes
  obtain ⟨second, prepared'⟩ := prepare_of_passes retried.passes
  refine ⟨second, ?_, (prepare_ok prepared').2.1⟩
  unfold transmissions sendRfce
  rw [loop_retries (w := ⟨sequences, []⟩) prepared retried.again]
  exact loop_sends 1 prepared'

/-- A number of the provider is not one of a summary. -/
theorem not_valid_of_retried (passes : Passes c 0 rfce) (retried : Retried c sequences rfce) :
    ¬ RetriesValid c sequences rfce := by
  intro valid
  obtain ⟨t, sent, numbered⟩ := retry_sent passes retried
  have own := valid.own t sent
  rw [tipoeCF_of_valid (valid.validated t sent), numbered] at own
  exact Bool.false_ne_true ((number_other _).symm.trans own)

end

/-- **When the retries are valid.** Exactly when what is transmitted first is of its
own type and nothing is transmitted after it. -/
theorem retries_valid_iff (c : Connection) (sequences : String → ℕ) (rfce : Summary) :
    RetriesValid c sequences rfce ↔
      (Passes c 0 rfce → startsWith rfce.eNcf "E32" = true ∧ ¬ Retried c sequences rfce) := by
  obtain ⟨few, proper⟩ := transmissions_proper c sequences rfce
  constructor
  · intro valid passes
    obtain ⟨t, prepared⟩ := prepare_of_passes passes
    have own := valid.own t (first_sent prepared)
    rw [(prepare_ok prepared).2.1, tipoeCF_of_valid passes.1] at own
    exact ⟨own, fun retried => not_valid_of_retried passes retried valid⟩
  · intro meets
    have single : ∀ t ∈ transmissions c sequences rfce, t.rfce = rfce ∧
        transmissions c sequences rfce = [t] ∧ startsWith rfce.eNcf "E32" = true := by
      intro t sent
      by_cases passes : Passes c 0 rfce
      · obtain ⟨first, prepared⟩ := prepare_of_passes passes
        have alone := transmissions_single prepared (meets passes).2
        have same : t = first := by simpa [alone] using sent
        subst same
        exact ⟨(prepare_ok prepared).2.1, alone, (meets passes).1⟩
      · rw [transmissions_refused passes] at sent
        exact absurd sent List.not_mem_nil
    constructor
    · exact few
    · exact fun t sent => (proper t sent).validated
    · intro t sent
      have renumbers := (proper t sent).renumbers
      refine ⟨renumbers, ?_⟩
      rw [(proper t sent).serialized, renumbers]
      exact serialize_renumbered rfce _
    · cases sent : transmissions c sequences rfce with
      | nil => exact List.nodup_nil
      | cons t rest =>
        obtain ⟨-, alone, -⟩ := single t (by rw [sent]; exact List.mem_cons_self)
        rw [← sent, alone]
        exact List.nodup_singleton _
    · intro t sent
      obtain ⟨same, -, own⟩ := single t sent
      rw [tipoeCF_of_valid (proper t sent).validated, same]
      exact own

/-! ## A rejected summary -/

/-- A summary of five hundred pesos. -/
def smallSummary : Summary where
  eNcf := "E320000000001"
  rncEmisor := "101000000"
  montoTotal := 500
  content := { fechaEmision := "01-06-2025", tipoPago := 1 }

/-- A rejection that leaves the number unused, to whatever is sent. -/
def rejecting : Connection where
  autoRetryOnReuseableSequence := true
  reply := fun _ => .ok { codigo := 2, estado := "Rechazado" }

theorem smallSummary_valid : validateRfce smallSummary = [] := by
  have rnc : isRnc "101000000" = true := by decide
  have length : "E320000000001".utf8ByteSize = 13 := by decide
  have fecha : tryParseDate "01-06-2025" = true := by decide
  simp only [validateRfce, List.append_eq_nil_iff, failure_eq_nil]
  simp [smallSummary, rnc, length, fecha, kRfceThreshold, validateTotalesConsistency,
    totalFailures, partFailures]
  norm_num

/-- The first number of a new provider makes an invoice of type 31 of the summary. -/
theorem rejected_summary_renumbered : ¬ RetriesValid rejecting (fun _ => 0) smallSummary := by
  have passes : Passes rejecting 0 smallSummary := ⟨smallSummary_valid, _, rfl, rfl⟩
  refine not_valid_of_retried passes ⟨⟨rfl, _, rfl, rfl⟩, ?_⟩
  refine ⟨(validateRfce_renumbered smallSummary_valid _).mpr ?_, _, rfl, rfl⟩
  decide

end EcfDgii.SummaryRetries
