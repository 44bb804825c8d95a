import AtsigCommon.Coroutine.Contract
import AtsigCommon.Middleware.Exact

/-!
# What is raised through the body limit

An exception that leaves the middleware is one that the app or the server has raised, for every
app, also one with many calls at a time.  The exception is a declared length that `isdigit` accepts
and `int` does not.

* `BodyRaising` — the exceptions that the awaits of `__call__` have brought; `call_raising` says
  that it raises no others.
* `Unrefused` — the requests that are not limited: nothing refuses them.
* `adds_no_failure_iff` — when the middleware adds no failure of its own.
-/

namespace Atsig

open Coroutine Python

section Failures

variable [StandardLibrary] (mw : BodyLimit) (scope : Scope)

/-! ## Runs -/

/-- The exchanges, with the steps that led to them. -/
inductive BodyExchange.Runs : List BodyAction → BodyExchange → Prop
  | init : Runs [] (BodyExchange.init mw scope)
  | step {actions : List BodyAction} {s s' : BodyExchange} {a : BodyAction} (h : Runs actions s)
      (hstep : s.Step mw a s') : Runs (actions ++ [a]) s'

/-- The app, `receive` or `send` raises an exception. -/
def BodyAction.raised? : BodyAction → Option BodyRaised
  | .received _ (.error e) | .taken _ (.error e) | .mainTaken (.error e) | .appEnds (.error e) =>
      some e
  | _ => none

/-- **The middleware adds no failure of its own.** -/
structure AddsNoFailure : Prop where
  /-- What leaves the middleware has been raised by the app, by `receive` or by `send`. -/
  raised : ∀ actions s e f, BodyExchange.Runs mw scope actions s → s.main = .done (.error e) f →
    ∃ a ∈ actions, a.raised? = some e
  /-- What the app raises leaves the middleware, a `ClientDisconnect` after a refusal apart. -/
  passed : ∀ actions s e s', BodyExchange.Runs mw scope actions s →
    s.Step mw (.appEnds (.error e)) s' →
      ((∃ f, s'.main = .done (.error e) f) ↔ (e = .clientDisconnect → s.flags.rejected = false))

/-- The declared length of a limited request is a number for `int`, if it is one for `isdigit`. -/
def LengthReadable : Prop :=
  Multipart scope → ∀ text,
    scope.header "content-length" = some text → text.all isDigitLatin1 = true →
      text.all Char.isDigit = true ∧ text.length ≤ 4300

variable {mw scope}

variable (mw scope) in
omit [StandardLibrary] in
/-- The check of the declared length raises on what `int` does not read. -/
lemma declaredTooLarge_ok_iff : (∃ b, declaredTooLarge mw scope = .ok b)
    ↔ ∀ text, scope.header "content-length" = some text → text.all isDigitLatin1 = true →
      text.all Char.isDigit = true ∧ text.length ≤ 4300 := by
  rw [declaredTooLarge]
  cases hheader : scope.header "content-length" with
  | none => exact iff_of_true ⟨_, rfl⟩ fun text htext => by cases htext
  | some text =>
      simp only [Option.some.injEq, forall_eq']
      by_cases hempty : text = []
      · rw [if_neg fun h => h.1 hempty, hempty]
        exact iff_of_true ⟨_, rfl⟩ fun _ => ⟨rfl, Nat.zero_le _⟩
      by_cases hdigits : text.all isDigitLatin1 = true
      · rw [if_pos ⟨hempty, hdigits⟩, intOfDigits]
        split_ifs with hall hshort
        · exact iff_of_true ⟨_, rfl⟩ fun _ => ⟨hall, hshort⟩
        · exact iff_of_false (by rintro ⟨b, hb⟩; cases hb) fun h => hshort (h hdigits).2
        · exact iff_of_false (by rintro ⟨b, hb⟩; cases hb) fun h => hall (h hdigits).1
      · rw [if_neg fun h => hdigits h.2]
        exact iff_of_true ⟨_, rfl⟩ fun h => absurd h hdigits

variable (mw scope) in
/-- What `__call__` does: it calls the app with the functions of the server or with its own,
refuses the request, or fails. -/
lemma call_cases : (¬ Multipart scope ∧ Body.call mw scope = runApp .raw)
    ∨ Multipart scope ∧ ((∃ e, declaredTooLarge mw scope = .error e
          ∧ Body.call mw scope = Co.raise (S := bodySig) (.exception e))
        ∨ (∃ b, declaredTooLarge mw scope = .ok b) ∧ (Body.call mw scope = reject mw
          ∨ Body.call mw scope = exceptDisconnect (runApp .limited))) := by
  by_cases hlimited : Multipart scope
  · refine .inr ⟨hlimited, ?_⟩
    rw [Body.call, if_neg (by simp [hlimited.http, hlimited.multipart])]
    cases hdeclared : declaredTooLarge mw scope with
    | error e => exact .inl ⟨e, rfl, rfl⟩
    | ok b =>
        cases b with
        | true => exact .inr ⟨⟨_, rfl⟩, .inl rfl⟩
        | false => exact .inr ⟨⟨_, rfl⟩, .inr rfl⟩
  · refine .inl ⟨hlimited, ?_⟩
    rw [Body.call, if_pos]
    by_contra hnot
    simp only [not_or, not_not, Bool.not_eq_false] at hnot
    exact hlimited ⟨hnot.1, hnot.2⟩

/-! ## What `__call__` raises -/

/-- The exception of an answer. -/
def raisedBy {α : Type} : Except BodyRaised α → List BodyRaised
  | .ok _ => []
  | .error e => [e]

/-- The exceptions that the awaits have brought. -/
def BodyRaising : Contract bodySig (List BodyRaised) :=
  .monitor (fun _ _ => True) (fun _ _ => True) fun g _ r => g ++ raisedBy r

/-- It raises no others. -/
def RaisesOnly (p : Program bodySig Unit) (g : List BodyRaised) : Prop :=
  p.wp BodyRaising (fun _ _ _ => True) (fun e g _ => e ∈ g) g

omit [StandardLibrary] in
lemma raisesOnly_done (r : Except BodyRaised Unit) (f : BodyFlags) (g : List BodyRaised) :
    RaisesOnly (.done r f) (g ++ raisedBy r) := by
  cases r with
  | ok a => trivial
  | error e => exact List.mem_append_right g (List.mem_singleton.mpr rfl)

/-- **`__call__` raises what its awaits bring**, if it can read the declared length. -/
lemma call_raising (h : LengthReadable scope) : RaisesOnly (Body.call mw scope {}) [] := by
  rcases call_cases mw scope with
    ⟨-, hcall⟩ | ⟨hlimited, ⟨e, he, -⟩ | ⟨-, hcall | hcall⟩⟩
  · rw [hcall]
    refine ⟨trivial, ?_⟩
    rintro r g f ⟨-, rfl⟩
    exact raisesOnly_done r f []
  · obtain ⟨b, hb⟩ := (declaredTooLarge_ok_iff mw scope).mpr (h hlimited)
    rw [he] at hb
    cases hb
  · rw [hcall]
    refine ⟨trivial, ?_⟩
    rintro r g f ⟨-, rfl⟩
    cases r with
    | error e => exact raisesOnly_done (.error e) f []
    | ok a =>
        refine ⟨trivial, ?_⟩
        rintro r' g' f' ⟨-, rfl⟩
        cases r' with
        | error e => exact raisesOnly_done (.error e) f' _
        | ok a => exact trivial
  · rw [hcall, exceptDisconnect_runApp]
    refine ⟨trivial, ?_⟩
    rintro r g f ⟨-, rfl⟩
    rw [afterApp_eq]
    split_ifs
    · exact trivial
    · exact raisesOnly_done r f []

/-! ## Where `__call__` waits -/

/-- It does not wait for the app. -/
def Past (p : Program bodySig Unit) : Prop :=
  p.wp (.monitor (fun (_ : Unit) (c : BodyCommand) => ∀ channel, c ≠ .app channel)
    (fun _ _ => True) fun g _ _ => g) (fun _ _ _ => True) (fun _ _ _ => True) ()

omit [StandardLibrary] in
lemma past_done (r : Except BodyRaised Unit) (f : BodyFlags) : Past (.done r f) := by
  cases r with
  | ok a => exact trivial
  | error e => exact trivial

/-- Where `__call__` is. -/
inductive Main (scope : Scope) : Program bodySig Unit → Prop
  | raw (h : ¬ Multipart scope) (f : BodyFlags) : Main scope (runApp .raw f)
  | limited (h : Multipart scope) (f : BodyFlags) :
      Main scope (.await (.app .limited) f afterApp)
  | past {p : Program bodySig Unit} (h : Past p)
      (hdone : ¬ Multipart scope → ∃ r f, p = .done r f) : Main scope p

lemma main_call : Main scope (Body.call mw scope {}) := by
  rcases call_cases mw scope with
    ⟨hraw, hcall⟩ | ⟨hlimited, ⟨e, -, hcall⟩ | ⟨-, hcall | hcall⟩⟩
  · rw [hcall]
    exact .raw hraw {}
  · rw [hcall]
    exact .past (past_done _ _) fun _ => ⟨_, _, rfl⟩
  · rw [hcall]
    refine .past ⟨nofun, ?_⟩ fun hraw => absurd hlimited hraw
    rintro r g f -
    cases r with
    | error e => exact past_done _ _
    | ok a =>
        refine ⟨nofun, ?_⟩
        rintro r' g' f' -
        cases r' with
        | error e => exact past_done _ _
        | ok a => exact past_done _ _
  · rw [hcall, exceptDisconnect_runApp]
    exact .limited hlimited {}

omit [StandardLibrary] in
/-- The app has ended. -/
lemma Main.appEnds {channel : Channel} {f : BodyFlags}
    {k : Except BodyRaised Unit → BodyFlags → Program bodySig Unit}
    (h : Main scope (.await (.app channel) f k)) :
    (¬ Multipart scope ∧ channel = .raw ∧ k = fun r f => .done r f)
      ∨ (Multipart scope ∧ channel = .limited ∧ k = afterApp) := by
  cases h with
  | raw h => exact .inl ⟨h, rfl, rfl⟩
  | limited h => exact .inr ⟨h, rfl, rfl⟩
  | past h hdone => exact absurd rfl (h.1 channel)

omit [StandardLibrary] in
/-- A message has been taken. -/
lemma Main.taken {message : Message} {f : BodyFlags}
    {k : Except BodyRaised Unit → BodyFlags → Program bodySig Unit}
    (h : Main scope (.await (.send message) f k)) (r : Except BodyRaised Unit) (f' : BodyFlags) :
    Multipart scope ∧ Main scope (k r f') := by
  cases h with
  | past h hdone =>
      have hlimited : Multipart scope := by
        by_contra hraw
        obtain ⟨r, f, hdone⟩ := hdone hraw
        cases hdone
      exact ⟨hlimited, .past (h.2 r () f' ⟨trivial, rfl⟩) fun hraw => absurd hlimited hraw⟩

/-! ## Requests that are not limited -/

/-- The calls of an app that has got the functions of the server. -/
def Unrefused : Contract bodySig Unit where
  may _ f _ := f.rejected = false
  env _ _ _ _ _ f := f.rejected = false

/-- Nothing is refused. -/
def Unrefusing (p : Program bodySig (Option Message)) : Prop :=
  p.wp Unrefused (fun _ _ f => f.rejected = false) (fun _ _ f => f.rejected = false) ()

omit [StandardLibrary] in
lemma Unrefusing.state {p : Program bodySig (Option Message)} (h : Unrefusing p) {f : BodyFlags}
    (hf : f.rejected = false) : (p.state?.getD f).rejected = false := by
  cases p with
  | done r f' => cases r <;> exact h
  | await c f' k => exact h.1
  | spent => exact hf

lemma unrefusing_receive {f : BodyFlags} (hf : f.rejected = false) :
    Unrefusing (receiveCall mw .raw f) := by
  refine ⟨hf, fun r _ f' hf' => ?_⟩
  cases r <;> exact hf'

omit [StandardLibrary] in
lemma unrefusing_send (message : Message) {f : BodyFlags} (hf : f.rejected = false) :
    Unrefusing (sendCall message .raw f) := by
  refine ⟨hf, fun r _ f' hf' => ?_⟩
  cases r <;> exact hf'

/-! ## Every run -/

variable (mw scope) in
/-- **The invariant of the runs.** -/
structure Tracked (actions : List BodyAction) (s : BodyExchange) : Prop where
  main : Main scope s.main
  raising : LengthReadable scope → ∃ g, RaisesOnly s.main g
    ∧ ∀ e ∈ g, ∃ a ∈ actions, a.raised? = some e
  flags : ¬ Multipart scope → s.flags.rejected = false
  calls : ¬ Multipart scope → ∀ id p, s.calls id = some p → Unrefusing p

variable {actions : List BodyAction} {s s' : BodyExchange} {a : BodyAction}

omit [StandardLibrary] in
/-- A call runs. -/
lemma Tracked.runCall (h : Tracked scope actions s) {id : CallId}
    {p : Program bodySig (Option Message)} (hp : ¬ Multipart scope → Unrefusing p)
    (a : BodyAction) :
    Tracked scope (actions ++ [a]) (s.runCall id p) where
  main := h.main
  raising hlength := by
    obtain ⟨g, hg, hraised⟩ := h.raising hlength
    refine ⟨g, hg, fun e he => ?_⟩
    obtain ⟨a', ha', hraised⟩ := hraised e he
    exact ⟨a', List.mem_append_left _ ha', hraised⟩
  flags hraw := (hp hraw).state (h.flags hraw)
  calls hraw id' p' hp' := by
    by_cases hid : id' = id
    · subst hid
      have heq : p = p' := by simpa [BodyExchange.runCall] using hp'
      rw [← heq]
      exact hp hraw
    · refine h.calls hraw id' p' ?_
      simpa [BodyExchange.runCall, hid] using hp'

omit [StandardLibrary] in
/-- An await of `__call__` ends. -/
lemma Tracked.runMain (h : Tracked scope actions s) {c : BodyCommand} {f : BodyFlags}
    {k : Except BodyRaised (BodyCommand.Answer c) → BodyFlags → Program bodySig Unit}
    (hmain : s.main = .await c f k) (r : Except BodyRaised (BodyCommand.Answer c))
    (hnext : Main scope (k r s.flags))
    (hflags : ¬ Multipart scope → ((k r s.flags).state?.getD s.flags).rejected = false)
    (ha : ∀ e, r = .error e → a.raised? = some e) :
    Tracked scope (actions ++ [a]) (s.runMain (k r s.flags)) where
  main := hnext
  raising hlength := by
    obtain ⟨g, hg, hraised⟩ := h.raising hlength
    rw [hmain] at hg
    refine ⟨g ++ raisedBy r, hg.2 r _ s.flags ⟨trivial, rfl⟩, fun e he => ?_⟩
    rcases List.mem_append.mp he with he | he
    · obtain ⟨a', ha', hraised⟩ := hraised e he
      exact ⟨a', List.mem_append_left _ ha', hraised⟩
    · cases r with
      | ok x => cases he
      | error e' =>
          obtain rfl := List.mem_singleton.mp he
          exact ⟨a, List.mem_append_right _ (List.mem_singleton.mpr rfl), ha _ rfl⟩
  flags := hflags
  calls := h.calls

omit [StandardLibrary] in
/-- The app has been called with the functions of the server, where the request is not limited. -/
lemma Tracked.channel (h : Tracked scope actions s) {channel : Channel}
    (hmain : s.main.command? = some (.app channel)) (hraw : ¬ Multipart scope) :
    channel = .raw := by
  cases hs : s.main with
  | done r f => rw [hs] at hmain; cases hmain
  | spent => rw [hs] at hmain; cases hmain
  | await c f k =>
      rw [hs] at hmain
      obtain rfl : c = .app channel := by injection hmain
      have hm := h.main
      rw [hs] at hm
      rcases hm.appEnds with ⟨-, hchannel, -⟩ | ⟨hlimited, -, -⟩
      · exact hchannel
      · exact absurd hlimited hraw

/-- **A step keeps the invariant.** -/
lemma Tracked.step (h : Tracked scope actions s) (hstep : s.Step mw a s') :
    Tracked scope (actions ++ [a]) s' := by
  cases hstep with
  | appReceives n channel hmain hnew =>
      refine h.runCall (fun hraw => ?_) _
      rw [h.channel hmain hraw]
      exact unrefusing_receive (h.flags hraw)
  | appSends n message channel hmain hnew =>
      have hsent : Tracked scope actions { s with fromApp := s.fromApp ++ [message] } :=
        ⟨h.main, h.raising, h.flags, h.calls⟩
      refine hsent.runCall (fun hraw => ?_) _
      rw [h.channel hmain hraw]
      exact unrefusing_send message (h.flags hraw)
  | received id f k r hcall =>
      have hsent : Tracked scope actions { s with fromServer := s.fromServer ++ answered r } :=
        ⟨h.main, h.raising, h.flags, h.calls⟩
      exact hsent.runCall (fun hraw => (h.calls hraw id _ hcall).2 r () s.flags (h.flags hraw)) _
  | taken id message f k r hcall =>
      exact h.runCall (fun hraw => (h.calls hraw id _ hcall).2 r () s.flags (h.flags hraw)) _
  | mainTaken message f k r hmain =>
      have hm := h.main
      rw [hmain] at hm
      obtain ⟨hlimited, hnext⟩ := hm.taken r s.flags
      refine h.runMain hmain r hnext (fun hraw => absurd hlimited hraw) ?_
      rintro e rfl
      rfl
  | appEnds channel f k r hmain =>
      have hm := h.main
      rw [hmain] at hm
      have hraised : ∀ e, r = .error e → (BodyAction.appEnds r).raised? = some e := by
        rintro e rfl
        rfl
      rcases hm.appEnds with ⟨hraw, rfl, rfl⟩ | ⟨hlimited, rfl, rfl⟩
      · exact h.runMain hmain r (.past (past_done r _) fun _ => ⟨_, _, rfl⟩)
          (fun hraw => h.flags hraw) hraised
      · refine h.runMain hmain r (.past ?_ fun hraw => absurd hlimited hraw)
          (fun hraw => absurd hlimited hraw) hraised
        rw [afterApp_eq]
        split_ifs
        · exact past_done _ _
        · exact past_done _ _

lemma tracked_init : Tracked scope [] (BodyExchange.init mw scope) where
  main := main_call
  raising hlength := ⟨[], call_raising hlength, nofun⟩
  flags _ := rfl
  calls _ _ _ h := by cases h

/-- **The invariant holds in every run.** -/
theorem Tracked.of_runs (h : BodyExchange.Runs mw scope actions s) : Tracked scope actions s := by
  induction h with
  | init => exact tracked_init
  | step _ hstep ih => exact ih.step hstep

variable (mw scope) in
/-- **When the middleware adds no failure of its own**: the declared length is a number for `int`,
or `isdigit` does not take it for one. -/
theorem adds_no_failure_iff : AddsNoFailure mw scope ↔ LengthReadable scope := by
  constructor
  · intro h hlimited
    rw [← declaredTooLarge_ok_iff mw scope]
    rcases call_cases mw scope with
      ⟨hraw, -⟩ | ⟨-, ⟨e, -, hcall⟩ | ⟨hok, -⟩⟩
    · exact absurd hlimited hraw
    · -- the request fails before anything is awaited
      have hmain : (BodyExchange.init mw scope).main = .done (.error (.exception e)) {} :=
        congrFun hcall {}
      obtain ⟨a, ha, -⟩ := h.raised [] _ _ _ .init hmain
      cases ha
    · exact hok
  · intro hlength
    refine ⟨fun actions s e f hruns hmain => ?_, fun actions s e s' hruns hstep => ?_⟩
    · obtain ⟨g, hg, hraised⟩ := (Tracked.of_runs hruns).raising hlength
      rw [hmain] at hg
      exact hraised e hg
    · have htracked := Tracked.of_runs hruns
      cases hstep with
      | appEnds channel f k r hmain =>
          have hm := htracked.main
          rw [hmain] at hm
          rcases hm.appEnds with ⟨hraw, rfl, rfl⟩ | ⟨hlimited, rfl, rfl⟩
          · exact iff_of_true ⟨s.flags, rfl⟩ fun _ => htracked.flags hraw
          · show (∃ f, afterApp (.error e) s.flags = .done (.error e) f) ↔ _
            rw [afterApp_eq]
            split_ifs with hrefused
            · refine iff_of_false (fun ⟨f, hf⟩ => by cases hf) fun h => ?_
              obtain rfl : e = .clientDisconnect := Except.error.inj hrefused.1
              rw [h rfl] at hrefused
              cases hrefused.2
            · refine iff_of_true ⟨s.flags, rfl⟩ ?_
              rintro rfl
              by_contra hrejected
              exact hrefused ⟨rfl, by simpa using hrejected⟩

/-! ## A superscript -/

/-- A request that declares its length as `²`. -/
def superscriptScope : Scope where
  type := "http"
  headers := [(encodeText "content-type", encodeText "multipart/form-data"),
    (encodeText "content-length", [178])]

end Failures

section Superscript

attribute [local instance] plainLibrary

/-- `int` does not read what `isdigit` accepts: a `ValueError` leaves the middleware, and neither
the app nor the server has raised it. -/
theorem superscript_fails : ∃ f, BodyExchange.Runs { maxBodySize := 10 } superscriptScope []
      (BodyExchange.init { maxBodySize := 10 } superscriptScope)
    ∧ (BodyExchange.init { maxBodySize := 10 } superscriptScope).main
      = .done (.error (.exception invalidLiteral)) f
    ∧ ¬ AddsNoFailure { maxBodySize := 10 } superscriptScope := by
  have hmain : (BodyExchange.init { maxBodySize := 10 } superscriptScope).main
      = .done (.error (.exception invalidLiteral)) {} := by
    with_unfolding_all rfl
  refine ⟨{}, .init, hmain, fun h => ?_⟩
  obtain ⟨a, ha, -⟩ := h.raised [] _ _ _ .init hmain
  cases ha

end Superscript

end Atsig
