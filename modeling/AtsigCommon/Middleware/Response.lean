import AtsigCommon.Middleware.Exact

/-!
# The response behind the body limit

The refusal is sent from inside `receive`, at whatever point of its own response the app has
reached.  Here the app may receive and send in any order and with any number of calls at a time.

* `ProperResponse`, `Conformant` — what a server may get, and what an app does by itself.
* `Answers` — the invariant: what the server has got, and which calls will send more.
* `refusal_proper` — the refusal keeps the response proper as long as it comes before everything
  else.
-/

namespace Atsig

open Coroutine Python

/-! ## Responses -/

def Message.isResponseStart (message : Message) : Bool := message.type = "http.response.start"

def Message.isResponseBody (message : Message) : Bool := message.type = "http.response.body"

/-- The last message of a response: `more_body` is false or absent. -/
def Message.isFinal (message : Message) : Bool := message.isResponseBody && !message.moreBody

/-- Nothing comes after a final body message. -/
def EndsFinal (messages : List Message) : Prop :=
  ∀ pre m post, messages = pre ++ m :: post → m.isFinal = true → post = []

/-- What the server may get: one start at most, and nothing after the end. -/
structure ProperResponse (messages : List Message) : Prop where
  starts : messages.countP Message.isResponseStart ≤ 1
  final : EndsFinal messages

/-- What a conformant app has sent so far: nothing, or a start and body messages after it. -/
def Conformant (messages : List Message) : Prop :=
  messages = [] ∨ ∃ start bodies, messages = start :: bodies ∧ start.isResponseStart = true
    ∧ (∀ m ∈ bodies, m.isResponseBody = true) ∧ EndsFinal bodies

lemma Message.not_start_of_body {message : Message} (h : message.isResponseBody = true) :
    message.isResponseStart = false := by
  simp only [Message.isResponseBody, decide_eq_true_eq] at h
  simp [Message.isResponseStart, h]

lemma EndsFinal.cons {m : Message} {messages : List Message} (hm : m.isFinal = false)
    (h : EndsFinal messages) : EndsFinal (m :: messages) := by
  intro pre m' post heq hfinal
  cases pre with
  | nil =>
      cases heq
      rw [hm] at hfinal
      cases hfinal
  | cons x pre =>
      cases heq
      exact h pre m' post rfl hfinal

lemma endsFinal_singleton (m : Message) : EndsFinal [m] := by
  intro pre m' post heq _
  cases pre with
  | nil =>
      cases heq
      rfl
  | cons x pre =>
      injection heq with _ hnil
      simp at hnil

lemma countP_bodies {messages : List Message} (h : ∀ m ∈ messages, m.isResponseBody = true) :
    messages.countP Message.isResponseStart = 0 := by
  rw [List.countP_eq_zero]
  intro m hm
  rw [Message.not_start_of_body (h m hm)]
  exact Bool.false_ne_true

/-- A response that is proper so far. -/
lemma ProperResponse.initial {messages more : List Message} (h : ProperResponse more)
    (hinitial : messages <+: more) : ProperResponse messages := by
  obtain ⟨rest, rfl⟩ := hinitial
  refine ⟨?_, fun pre m post heq hfinal => ?_⟩
  · have hstarts := h.starts
    rw [List.countP_append] at hstarts
    omega
  · have hpost := h.final pre m (post ++ rest) (by rw [heq]; simp) hfinal
    exact (List.append_eq_nil_iff.mp hpost).1

/-- A conformant app alone gives a proper response. -/
lemma Conformant.proper {messages : List Message} (h : Conformant messages) :
    ProperResponse messages := by
  rcases h with rfl | ⟨start, bodies, rfl, hstart, hbodies, hfinal⟩
  · exact ⟨Nat.zero_le 1, fun pre m post heq => by simp at heq⟩
  · refine ⟨?_, hfinal.cons ?_⟩
    · rw [List.countP_cons_of_pos hstart, countP_bodies hbodies]
    · simp only [Message.isResponseStart, decide_eq_true_eq] at hstart
      simp [Message.isFinal, Message.isResponseBody, hstart]

/-- A conformant app that has sent something has sent its start. -/
lemma Conformant.starts {messages : List Message} (h : Conformant messages) (hne : messages ≠ []) :
    1 ≤ messages.countP Message.isResponseStart := by
  rcases h with rfl | ⟨start, bodies, rfl, hstart, -, -⟩
  · exact absurd rfl hne
  · rw [List.countP_cons_of_pos hstart]
    omega

section Refusal

variable [StandardLibrary] (mw : BodyLimit)

lemma refusal_final : EndsFinal [mw.refusalStart, mw.refusalEnd] :=
  (endsFinal_singleton _).cons rfl

/-- The refusal alone is a proper response. -/
lemma refusal_alone : ProperResponse [mw.refusalStart, mw.refusalEnd] :=
  ⟨by simp [Message.isResponseStart, BodyLimit.refusalStart, BodyLimit.refusalEnd],
    refusal_final mw⟩

lemma refusal_begun : ProperResponse [mw.refusalStart] :=
  ⟨by simp [Message.isResponseStart, BodyLimit.refusalStart], endsFinal_singleton _⟩

/-! ## Calls -/

/-- The call has ended, or it waits for a message. -/
def Waits (p : Program bodySig (Option Message)) : Prop := Ended p ∨ AtServer mw p

/-- What the server has got, and which calls will send more: nothing has been refused, the refusal
has begun, or it is complete. -/
inductive Answering (calls : CallId → Option (Program bodySig (Option Message)))
    (fromApp : List Message) : (toServer : List Message) → (rejected : Bool) → Prop
  | answering (toServer : List Message) (hsent : toServer = fromApp)
      (hcalls : ∀ id p, calls id = some p → Waits mw p ∨ (AtSend p ∧ toServer ≠ [])) :
      Answering calls fromApp toServer false
  | refusing (turn : CallId)
      (hcalls : ∀ id p, calls id = some p → Waits mw p ∨ (AtStart mw p ∧ id = turn)) :
      Answering calls fromApp [mw.refusalStart] true
  | refused (hcalls : ∀ id p, calls id = some p → Waits mw p ∨ AtEnd mw p) :
      Answering calls fromApp [mw.refusalStart, mw.refusalEnd] true

/-- The invariant of an exchange whose declared length was not refused. -/
structure Answers (s : BodyExchange) : Prop where
  main : Serving s.main
  answering : Answering mw s.calls s.fromApp s.toServer s.flags.rejected

/-- The message of the server is in time: if it brings the body over the limit, the server has got
nothing yet. -/
def Timely (s : BodyExchange) : BodyAction → Prop
  | .received _ (.ok message) => message.isRequest = true →
      s.flags.received + message.bodyLength > mw.maxBodySize → s.toServer = []
  | _ => True

end Refusal

section Steps

variable [StandardLibrary] {mw : BodyLimit} {s s' : BodyExchange} {a : BodyAction}
  {calls : CallId → Option (Program bodySig (Option Message))} {fromApp toServer : List Message}
  {rejected : Bool}

/-- A call goes on without sending. -/
lemma Answering.quiet (h : Answering mw calls fromApp toServer rejected) (id : CallId)
    {p : Program bodySig (Option Message)} (hp : Waits mw p) :
    Answering mw (Function.update calls id (some p)) fromApp toServer rejected := by
  cases h with
  | answering _ hsent hcalls =>
      exact .answering _ hsent (forall_runCall id
        (P := fun _ q => Waits mw q ∨ (AtSend q ∧ toServer ≠ [])) (.inl hp)
        fun id' q _ hq => hcalls id' q hq)
  | refusing turn hcalls =>
      exact .refusing turn (forall_runCall id
        (P := fun id' q => Waits mw q ∨ (AtStart mw q ∧ id' = turn)) (.inl hp)
        fun id' q _ hq => hcalls id' q hq)
  | refused hcalls =>
      exact .refused (forall_runCall id (P := fun _ q => Waits mw q ∨ AtEnd mw q) (.inl hp)
        fun id' q _ hq => hcalls id' q hq)

lemma Answers.appReceives (h : Answers mw s) {n : ℕ} {channel : Channel}
    (hmain : s.main.command? = some (.app channel)) :
    Answers mw (s.runCall (.receive n) (receiveCall mw channel s.flags)) := by
  rw [h.main.channel hmain, receiveCall_limited]
  refine ⟨h.main, ?_⟩
  split
  · show Answering mw _ s.fromApp (s.toServer ++ []) s.flags.rejected
    rw [List.append_nil]
    exact h.answering.quiet _ (.inl ⟨_, _, rfl⟩)
  · show Answering mw _ s.fromApp (s.toServer ++ []) s.flags.rejected
    rw [List.append_nil]
    exact h.answering.quiet _ (.inr ⟨_, rfl⟩)

lemma Answers.appSends (h : Answers mw s) {n : ℕ} {message : Message} {channel : Channel}
    (hmain : s.main.command? = some (.app channel)) :
    Answers mw ({ s with fromApp := s.fromApp ++ [message] }.runCall (.send n)
      (sendCall message channel s.flags)) := by
  rw [h.main.channel hmain, sendCall_limited]
  refine ⟨h.main, ?_⟩
  have hanswering := h.answering
  split
  · -- the message of the app is dropped
    show Answering mw _ (s.fromApp ++ [message]) (s.toServer ++ []) s.flags.rejected
    have hrejected : s.flags.rejected = true := ‹_›
    have hquiet := hanswering.quiet (.send n)
      (show Waits mw (.done (.ok none) s.flags) from .inl ⟨_, _, rfl⟩)
    rw [hrejected] at hquiet ⊢
    rw [List.append_nil]
    generalize htoServer : s.toServer = toServer at hquiet ⊢
    cases hquiet with
    | refusing turn hcalls => exact .refusing turn hcalls
    | refused hcalls => exact .refused hcalls
  · show Answering mw _ (s.fromApp ++ [message]) (s.toServer ++ [message]) s.flags.rejected
    have hrejected : s.flags.rejected = false := by simpa using ‹¬ s.flags.rejected = true›
    rw [hrejected] at hanswering ⊢
    generalize htoServer : s.toServer = toServer at hanswering ⊢
    cases hanswering with
    | answering _ hsent hcalls =>
        refine .answering _ (congrArg (· ++ [message]) hsent) (forall_runCall (.send n)
          (P := fun _ q => Waits mw q ∨ (AtSend q ∧ toServer ++ [message] ≠ []))
          (.inr ⟨⟨_, _, rfl⟩, by simp⟩) fun id' q _ hq => ?_)
        exact (hcalls id' q hq).imp_right fun hq => ⟨hq.1, by simp⟩

/-- Which call is answered by the server. -/
lemma Answering.at_server (h : Answering mw calls fromApp toServer rejected) {id : CallId}
    {f : BodyFlags} {k : Except BodyRaised Message → BodyFlags → Program bodySig (Option Message)}
    (hcall : calls id = some (.await .receive f k)) : k = afterReceive mw := by
  have hwaits : Waits mw (.await .receive f k) := by
    cases h with
    | answering _ hsent hcalls =>
        rcases hcalls id _ hcall with hw | ⟨⟨m, f', heq⟩, -⟩
        · exact hw
        · cases heq
    | refusing turn hcalls =>
        rcases hcalls id _ hcall with hw | ⟨⟨f', heq⟩, -⟩
        · exact hw
        · cases heq
    | refused hcalls =>
        rcases hcalls id _ hcall with hw | ⟨f', heq⟩
        · exact hw
        · cases heq
  rcases hwaits with ⟨r, f', heq⟩ | ⟨f', heq⟩
  · cases heq
  · cases heq
    rfl

/-- A message that is over the limit, and in time. -/
lemma Answering.refuse (h : Answering mw calls fromApp [] rejected) (id : CallId) (f : BodyFlags) :
    Answering mw (Function.update calls id
      (some (.await (.send mw.refusalStart) f (afterStart mw)))) fromApp [mw.refusalStart]
      true := by
  cases h with
  | answering _ hsent hcalls =>
      refine .refusing id (forall_runCall id
        (P := fun id' q => Waits mw q ∨ (AtStart mw q ∧ id' = id))
        (.inr ⟨⟨f, rfl⟩, rfl⟩) fun id' q _ hq => ?_)
      exact (hcalls id' q hq).imp_right fun hq => absurd rfl hq.2

lemma Answers.received (h : Answers mw s) {id : CallId} {f : BodyFlags}
    {k : Except BodyRaised Message → BodyFlags → Program bodySig (Option Message)}
    (r : Except BodyRaised Message) (hcall : s.calls id = some (.await .receive f k))
    (htimely : Timely mw s (.received id r)) :
    Answers mw ({ s with fromServer := s.fromServer ++ answered r }.runCall id (k r s.flags)) := by
  have hk := h.answering.at_server hcall
  subst hk
  refine ⟨h.main, ?_⟩
  have hdone : ∀ r' (f' : BodyFlags), f'.rejected = s.flags.rejected →
      Answering mw (Function.update s.calls id (some (.done r' f'))) s.fromApp (s.toServer ++ [])
        f'.rejected := by
    intro r' f' hrejected
    rw [hrejected, List.append_nil]
    exact h.answering.quiet id (.inl ⟨_, _, rfl⟩)
  cases r with
  | error e => exact hdone _ s.flags rfl
  | ok message =>
      simp only [afterReceive]
      split_ifs with hrequest hover
      · have hnil : s.toServer = [] := htimely hrequest hover
        have hanswering := h.answering
        rw [hnil] at hanswering
        show Answering mw _ s.fromApp (s.toServer ++ [mw.refusalStart]) true
        rw [hnil]
        exact hanswering.refuse id _
      · exact hdone _ _ rfl
      · exact hdone _ s.flags rfl

/-- The server has taken a message of a call: one of the app, or one of the refusal. -/
lemma Answering.taken {flags : BodyFlags} (h : Answering mw calls fromApp toServer flags.rejected)
    {id : CallId} {message : Message} {f : BodyFlags}
    {k : Except BodyRaised Unit → BodyFlags → Program bodySig (Option Message)}
    (r : Except BodyRaised Unit) (hcall : calls id = some (.await (.send message) f k)) :
    Answering mw (Function.update calls id (some (k r flags))) fromApp
      (toServer ++ sentBy (k r flags)) ((k r flags).state?.getD flags).rejected := by
  have hwaits : ¬ Waits mw (.await (.send message) f k) := by
    rintro (⟨r', f', heq⟩ | ⟨f', heq⟩) <;> cases heq
  have hdone : ∀ r', Answering mw (Function.update calls id (some (.done r' flags))) fromApp
      (toServer ++ []) flags.rejected := by
    intro r'
    rw [List.append_nil]
    exact h.quiet id (.inl ⟨_, _, rfl⟩)
  generalize hrejected : flags.rejected = rejected at h
  cases h with
  | answering _ hsent hcalls =>
      obtain ⟨⟨m, f', heq⟩, -⟩ := (hcalls id _ hcall).resolve_left hwaits
      cases heq
      cases r with
      | ok a => exact hdone _
      | error e => exact hdone _
  | refusing turn hcalls =>
      obtain ⟨⟨f', heq⟩, rfl⟩ := (hcalls id _ hcall).resolve_left hwaits
      cases heq
      cases r with
      | error e => exact hdone _
      | ok a =>
          show Answering mw _ fromApp [mw.refusalStart, mw.refusalEnd] flags.rejected
          rw [hrejected]
          refine .refused (forall_runCall id (P := fun _ q => Waits mw q ∨ AtEnd mw q)
            (.inr ⟨flags, rfl⟩) fun id' q hid hq => .inl ?_)
          exact (hcalls id' q hq).resolve_right fun hq => hid hq.2
  | refused hcalls =>
      obtain ⟨f', heq⟩ := (hcalls id _ hcall).resolve_left hwaits
      cases heq
      cases r with
      | ok a => exact hdone _
      | error e => exact hdone _

lemma Answers.step (h : Answers mw s) (htimely : Timely mw s a) (hstep : s.Step mw a s') :
    Answers mw s' := by
  cases hstep with
  | appReceives n channel hmain hnew => exact h.appReceives hmain
  | appSends n message channel hmain hnew => exact h.appSends hmain
  | received id f k r hcall => exact h.received r hcall htimely
  | taken id message f k r hcall => exact ⟨h.main, h.answering.taken r hcall⟩
  | mainTaken message f k r hmain => exact absurd (hmain ▸ h.main) Serving.not_send
  | appEnds channel f k r hmain =>
      have hk := Serving.appEnds (hmain ▸ h.main)
      subst hk
      obtain ⟨r', hr'⟩ := afterApp_done r s.flags
      rw [hr']
      refine ⟨.inr ⟨_, _, rfl⟩, ?_⟩
      show Answering mw s.calls s.fromApp (s.toServer ++ []) s.flags.rejected
      rw [List.append_nil]
      exact h.answering

/-- What the server has got of a conformant app. -/
lemma Answering.proper (h : Answering mw calls fromApp toServer rejected)
    (hconformant : Conformant fromApp) : ProperResponse toServer := by
  cases h with
  | answering _ hsent hcalls =>
      rw [hsent]
      exact hconformant.proper
  | refusing turn hcalls => exact refusal_begun mw
  | refused hcalls => exact refusal_alone mw

/-- What has been sent began with a start. -/
lemma Answering.starts (h : Answering mw calls fromApp toServer rejected)
    (hconformant : Conformant fromApp) (hne : toServer ≠ []) :
    1 ≤ toServer.countP Message.isResponseStart := by
  cases h with
  | answering _ hsent hcalls =>
      rw [hsent] at hne ⊢
      exact hconformant.starts hne
  | refusing turn hcalls => simp [Message.isResponseStart, BodyLimit.refusalStart]
  | refused hcalls => simp [Message.isResponseStart, BodyLimit.refusalStart]

/-- A late refusal gives the server a second start. -/
lemma Answers.late (h : Answers mw s) (hconformant : Conformant s.fromApp)
    (hlate : ¬ Timely mw s a) (hstep : s.Step mw a s') : ¬ ProperResponse s'.toServer := by
  cases hstep with
  | received id f k r hcall =>
      have hk := h.answering.at_server hcall
      subst hk
      cases r with
      | error e => exact absurd trivial hlate
      | ok message =>
          simp only [Timely, Classical.not_imp] at hlate
          obtain ⟨hrequest, hover, hne⟩ := hlate
          simp only [afterReceive, if_pos hrequest, if_pos hover]
          intro hproper
          have htwo : (s.toServer ++ [mw.refusalStart]).countP Message.isResponseStart ≤ 1 :=
            hproper.starts
          have hone := h.answering.starts hconformant hne
          have hstart : [mw.refusalStart].countP Message.isResponseStart = 1 := by
            simp [Message.isResponseStart, BodyLimit.refusalStart]
          rw [List.countP_append, hstart] at htwo
          omega
  | _ => exact absurd trivial hlate

end Steps

/-! ## Requests -/

section Responses

variable [StandardLibrary] (mw : BodyLimit) {scope : Scope}

/-- Every exchange whose messages come in time is served, or its declared length was refused. -/
lemma answers_or_turned (hscope : Multipart scope) {s : BodyExchange}
    (h : BodyExchange.Reachable mw (Timely mw) scope s) : Answers mw s ∨ Turned mw s := by
  induction h with
  | init =>
      cases hdeclared : declaredTooLarge mw scope with
      | error e =>
          have hcall : Body.call mw scope {} = .done (.error (.exception e)) {} := by
            rw [Body.call, if_neg (by simp [hscope.http, hscope.multipart]), hdeclared]
            rfl
          refine .inl ⟨?_, ?_⟩
          · rw [BodyExchange.init, hcall]
            exact .inr ⟨_, _, rfl⟩
          · rw [BodyExchange.init, hcall]
            exact .answering _ rfl fun id p hp => by cases hp
      | ok tooLarge =>
          cases tooLarge with
          | true =>
              have hcall := call_refused hscope.http hscope.multipart hdeclared {}
              refine .inr ⟨fun _ => rfl, rfl, rfl, rfl, ?_⟩
              rw [BodyExchange.init, hcall]
              exact .start {}
          | false =>
              have hcall := call_limited mw hscope.http hscope.multipart hdeclared {}
              refine .inl ⟨?_, ?_⟩
              · rw [BodyExchange.init, hcall]
                exact .inl ⟨_, rfl⟩
              · rw [BodyExchange.init, hcall]
                exact .answering _ rfl fun id p hp => by cases hp
  | step h ha hstep ih =>
      rcases ih with ih | ih
      · exact .inl (ih.step ha hstep)
      · exact .inr (ih.step hstep)

/-- **The refusal and the response of the app.**  The server gets a proper response as long as the
message that brings the body over the limit comes before the app has sent anything; and the first
message that does not gives the server a second start. -/
theorem refusal_proper (hscope : Multipart scope) {s : BodyExchange}
    (h : BodyExchange.Reachable mw (Timely mw) scope s) (hconformant : Conformant s.fromApp) :
    ProperResponse s.toServer
      ∧ ∀ a s', s.Step mw a s' → Conformant s'.fromApp →
          (ProperResponse s'.toServer ↔ Timely mw s a) := by
  rcases answers_or_turned mw hscope h with hs | hs
  · refine ⟨hs.answering.proper hconformant, fun a s' hstep hconformant' => ?_⟩
    by_cases htimely : Timely mw s a
    · exact iff_of_true ((hs.step htimely hstep).answering.proper hconformant') htimely
    · exact iff_of_false (hs.late hconformant htimely hstep) htimely
  · refine ⟨(refusal_alone mw).initial hs.turning.sent.1, fun a s' hstep _ => iff_of_true ?_ ?_⟩
    · exact (refusal_alone mw).initial (hs.step hstep).turning.sent.1
    · cases hstep with
      | received id f k r hcall => exact absurd ((hs.calls id).symm.trans hcall) (by simp)
      | _ => exact trivial

end Responses

/-- The start of the app's own response. -/
def okStart : Message where
  type := "http.response.start"
  status := some 200

/-- An upload over the limit, to an app that reads it before it answers. -/
theorem refusal_proper_upload : ∃ s,
    @BodyExchange.Reachable plainLibrary { maxBodySize := 2 } (Timely { maxBodySize := 2 })
      uploadScope s
      ∧ s.fromServer = [uploadPart] ∧ ProperResponse s.toServer := by
  let _ : StandardLibrary := plainLibrary
  let mw : BodyLimit := { maxBodySize := 2 }
  have hscope : Multipart uploadScope := ⟨rfl, by decide +kernel⟩
  let s₁ := (BodyExchange.init mw uploadScope).runCall (.receive 0) (receiveCall mw .limited {})
  have hmain : (BodyExchange.init mw uploadScope).main.command? = some (.app .limited) := by
    with_unfolding_all rfl
  have h₁ : BodyExchange.Reachable mw (Timely mw) uploadScope s₁ :=
    .step (a := .appReceives 0) .init trivial (.appReceives _ 0 .limited hmain rfl)
  have hcall : s₁.calls (.receive 0) = some (.await .receive {} (afterReceive mw)) := by
    rw [show s₁.calls (.receive 0) = some (receiveCall mw .limited {}) from rfl,
      receiveCall_limited]
    rfl
  have h₂ := BodyExchange.Reachable.step h₁ (a := .received (.receive 0) (.ok uploadPart))
    (fun _ _ => by with_unfolding_all rfl) (.received _ _ _ _ _ hcall)
  exact ⟨_, h₂, rfl, (refusal_proper mw hscope h₂ (.inl rfl)).1⟩

/-- **An app that has begun its response** reads past the limit: the server gets a second start. -/
theorem second_start : ∃ s,
    @BodyExchange.Reachable plainLibrary { maxBodySize := 2 } (fun _ _ => True) uploadScope s
      ∧ s.fromApp = [okStart] ∧ Conformant s.fromApp ∧ ¬ ProperResponse s.toServer := by
  let _ : StandardLibrary := plainLibrary
  let mw : BodyLimit := { maxBodySize := 2 }
  have hmain : (BodyExchange.init mw uploadScope).main.command? = some (.app .limited) := by
    with_unfolding_all rfl
  let s₁ := ({ BodyExchange.init mw uploadScope with fromApp := [okStart] }).runCall (.send 0)
    (sendCall okStart .limited {})
  have h₁ : BodyExchange.Reachable mw (fun _ _ => True) uploadScope s₁ :=
    .step (a := .appSends 0 okStart) .init trivial (.appSends _ 0 okStart .limited hmain rfl)
  let s₂ := s₁.runCall (.receive 0) (receiveCall mw .limited s₁.flags)
  have h₂ : BodyExchange.Reachable mw (fun _ _ => True) uploadScope s₂ :=
    .step (a := .appReceives 0) h₁ trivial (.appReceives _ 0 .limited hmain rfl)
  have hcall : s₂.calls (.receive 0) = some (.await .receive s₁.flags (afterReceive mw)) := by
    rw [show s₂.calls (.receive 0) = some (receiveCall mw .limited s₁.flags) from rfl,
      receiveCall_limited]
    rfl
  have h₃ := BodyExchange.Reachable.step h₂ (a := .received (.receive 0) (.ok uploadPart)) trivial
    (.received _ _ _ _ _ hcall)
  refine ⟨_, h₃, rfl, .inr ⟨okStart, [], rfl, rfl, by simp, fun pre m post heq => by simp at heq⟩,
    fun hproper => ?_⟩
  have hstarts : [okStart, mw.refusalStart].countP Message.isResponseStart ≤ 1 := by
    with_unfolding_all exact hproper.starts
  exact absurd hstarts (by decide +kernel)

end Atsig
