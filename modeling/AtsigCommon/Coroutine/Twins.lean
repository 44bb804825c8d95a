import AtsigCommon.Coroutine.Program

/-!
# Two coroutines side by side

Some properties compare two executions: what is seen of them is the same although what they work
on is not.  A `View` says what is seen of a command and of an answer, and what two coroutines may
do to their states while they look the same.

`Program.Twins v R s t p q` holds when `p` and `q`, which have run from the states `s` and `t` to
where they are, look the same now and for ever, as long as their answers do; and `R` relates what
they end with.  There is one rule for each way of building a coroutine.

* `Program.Twins.andThen` — sequencing, from which the others follow.
* `Program.Twins.run` — two executions of twins look the same.
-/

namespace Coroutine

variable {S : Signature} {V W α β γ δ : Type}

/-- What is seen of an execution. -/
structure View (S : Signature) (V W : Type) where
  /-- What is seen of a command. -/
  sent : S.Command → V
  /-- What is seen of an answer. -/
  got : (c : S.Command) → Except S.Raise (S.Answer c) → W
  /-- The exceptions look the same. -/
  raised : S.Raise → S.Raise → Prop
  /-- From `s` to `s'` and from `t` to `t'`, the same has been done. -/
  alike : S.State → S.State → S.State → S.State → Prop
  alike_refl : ∀ s t, alike s t s t
  alike_trans : ∀ {s t s' t' s'' t''}, alike s t s' t' → alike s' t' s'' t'' → alike s t s'' t''

/-- Two programs that look the same, whatever comes. -/
def Program.Twins (v : View S V W) (R : Except S.Raise α → Except S.Raise β → Prop) :
    S.State → S.State → Program S α → Program S β → Prop
  | s, t, .done r s', .done r' t' => R r r' ∧ v.alike s t s' t'
  | s, t, .await c s' k, .await c' t' k' =>
      v.alike s t s' t' ∧ v.sent c = v.sent c' ∧ ∀ a b s'' t'', v.got c a = v.got c' b →
        Twins v R s'' t'' (k a s'') (k' b t'')
  | _, _, .spent, .spent => True
  | _, _, _, _ => False

namespace Program.Twins

variable {v : View S V W} {R : Except S.Raise α → Except S.Raise β → Prop}
  {R' : Except S.Raise γ → Except S.Raise δ → Prop} {s t s' t' : S.State}

/-- What was done before is done first. -/
lemma since {p : Program S α} {q : Program S β} (h : p.Twins v R s' t' q)
    (hst : v.alike s t s' t') : p.Twins v R s t q := by
  cases p with
  | done r u =>
      cases q with
      | done r' u' => exact ⟨h.1, v.alike_trans hst h.2⟩
      | await c' u' k' => exact h
      | spent => exact h
  | await c u k =>
      cases q with
      | done r' u' => exact h
      | await c' u' k' => exact ⟨v.alike_trans hst h.1, h.2⟩
      | spent => exact h
  | spent => cases q <;> exact h

/-- **The rule of sequencing.** -/
lemma andThen {p : Program S α} {q : Program S β} (h : p.Twins v R s t q)
    {f : Except S.Raise α → S.State → Program S γ} {f' : Except S.Raise β → S.State → Program S δ}
    (hf : ∀ r r' u u', R r r' → (f r u).Twins v R' u u' (f' r' u')) :
    (p.andThen f).Twins v R' s t (q.andThen f') := by
  induction p generalizing q s t with
  | done r u =>
      cases q with
      | done r' u' => exact (hf r r' u u' h.1).since h.2
      | await c' u' k' => exact h.elim
      | spent => exact h.elim
  | await c u k ih =>
      cases q with
      | done r' u' => exact h.elim
      | await c' u' k' =>
          exact ⟨h.1, h.2.1, fun a b s'' t'' hab => ih a s'' (h.2.2 a b s'' t'' hab)⟩
      | spent => exact h.elim
  | spent =>
      cases q with
      | done r' u' => exact h.elim
      | await c' u' k' => exact h.elim
      | spent => trivial

end Program.Twins

/-! ## Rules for coroutine functions -/

/-- Both return, or both raise. -/
def View.ends (v : View S V W) (A : α → β → Prop) : Except S.Raise α → Except S.Raise β → Prop
  | .ok a, .ok b => A a b
  | .error e, .error e' => v.raised e e'
  | _, _ => False

/-- Two coroutine functions that look the same from any two states on. -/
def Co.Twins (v : View S V W) (A : α → β → Prop) (x : Co S α) (y : Co S β) : Prop :=
  ∀ s t, (x s).Twins v (v.ends A) s t (y t)

namespace Co.Twins

variable {v : View S V W} {A : α → β → Prop} {A' : γ → δ → Prop}

lemma ret {a : α} {b : β} (h : A a b) : (Co.ret a).Twins v A (Co.ret b) := fun s t =>
  ⟨h, v.alike_refl s t⟩

lemma raise {e e' : S.Raise} (h : v.raised e e') :
    (Co.raise e : Co S α).Twins v A (Co.raise e') := fun s t =>
  ⟨h, v.alike_refl s t⟩

lemma modify {A : Unit → Unit → Prop} {f f' : S.State → S.State} (hA : A () ())
    (h : ∀ s t, v.alike s t (f s) (f' t)) : (Co.modify f).Twins v A (Co.modify f') := fun s t =>
  ⟨hA, h s t⟩

/-- **The rule of the await.** -/
lemma call {c c' : S.Command} {A : S.Answer c → S.Answer c' → Prop} (hsent : v.sent c = v.sent c')
    (hgot : ∀ a b, v.got c a = v.got c' b → v.ends A a b) : (Co.call c).Twins v A (Co.call c') :=
  fun s t => ⟨v.alike_refl s t, hsent, fun a b s' t' hab => ⟨hgot a b hab, v.alike_refl s' t'⟩⟩

lemma andThen {x : Co S α} {y : Co S β} (h : x.Twins v A y) {f : Except S.Raise α → Co S γ}
    {f' : Except S.Raise β → Co S δ} (hf : ∀ r r', v.ends A r r' → (f r).Twins v A' (f' r')) :
    (x.andThen f).Twins v A' (y.andThen f') := fun s t =>
  (h s t).andThen fun r r' u u' hr => hf r r' hr u u'

lemma bind {x : Co S α} {y : Co S β} (h : x.Twins v A y) {f : α → Co S γ} {f' : β → Co S δ}
    (hf : ∀ a b, A a b → (f a).Twins v A' (f' b)) : (x >>= f).Twins v A' (y >>= f') := by
  refine h.andThen fun r r' hr => ?_
  cases r with
  | ok a =>
      cases r' with
      | ok b => exact hf a b hr
      | error e => exact hr.elim
  | error e =>
      cases r' with
      | ok b => exact hr.elim
      | error e' => exact raise hr

lemma protect {A : α → α → Prop} {x y : Co S α} (h : x.Twins v A y) {f f' : S.Raise → Co S α}
    (hf : ∀ e e', v.raised e e' → (f e).Twins v A (f' e')) :
    (x.protect f).Twins v A (y.protect f') := by
  refine h.andThen fun r r' hr => ?_
  cases r with
  | ok a =>
      cases r' with
      | ok b => exact ret hr
      | error e => exact hr.elim
  | error e =>
      cases r' with
      | ok b => exact hr.elim
      | error e' => exact hf e e' hr

lemma finally_ {x : Co S α} {y : Co S β} (h : x.Twins v A y) {last last' : S.State → S.State}
    (hlast : ∀ s t, v.alike s t (last s) (last' t)) :
    (x.finally_ last).Twins v A (y.finally_ last') := fun s t =>
  (h s t).andThen fun _ _ u u' hr => ⟨hr, hlast u u'⟩

end Co.Twins

/-! ## Executions -/

/-- What a coroutine has done between its awaits: from which state to which. -/
def spans : S.State → List (Exchange S) → Program S α → List (S.State × S.State)
  | s, [], q => [(s, q.state?.getD s)]
  | s, x :: tr, q => (s, x.before) :: spans x.after tr q

/-- Twins wait on commands that look the same. -/
lemma Program.Twins.command {v : View S V W} {R : Except S.Raise α → Except S.Raise β → Prop}
    {s t : S.State} {p : Program S α} {q : Program S β} (h : p.Twins v R s t q) :
    p.command?.map v.sent = q.command?.map v.sent := by
  cases p with
  | done r u =>
      cases q with
      | done r' u' => rfl
      | await c' u' k' => exact h.elim
      | spent => exact h.elim
  | await c u k =>
      cases q with
      | done r' u' => exact h.elim
      | await c' u' k' => exact congrArg some h.2.1
      | spent => exact h.elim
  | spent =>
      cases q with
      | done r' u' => exact h.elim
      | await c' u' k' => exact h.elim
      | spent => rfl

/-- The same has been done since the last answers. -/
lemma Program.Twins.alike {v : View S V W} {R : Except S.Raise α → Except S.Raise β → Prop}
    {s t : S.State} {p : Program S α} {q : Program S β} (h : p.Twins v R s t q) :
    v.alike s t (p.state?.getD s) (q.state?.getD t) := by
  cases p with
  | done r u =>
      cases q with
      | done r' u' => exact h.2
      | await c' u' k' => exact h.elim
      | spent => exact h.elim
  | await c u k =>
      cases q with
      | done r' u' => exact h.elim
      | await c' u' k' => exact h.1
      | spent => exact h.elim
  | spent =>
      cases q with
      | done r' u' => exact h.elim
      | await c' u' k' => exact h.elim
      | spent => exact v.alike_refl s t

/-- What is seen of the answers of an execution. -/
def View.answers (v : View S V W) (tr : List (Exchange S)) : List W :=
  tr.map fun x => v.got x.command x.answer

/-- **Executions of twins look the same**, as long as they are answered alike. -/
theorem Program.Twins.run {v : View S V W} {R : Except S.Raise α → Except S.Raise β → Prop}
    {p p' : Program S α} {q q' : Program S β} {s t : S.State} {tr tr' : List (Exchange S)}
    (h : p.Twins v R s t q) (hp : Run p tr p') (hq : Run q tr' q')
    (hanswers : v.answers tr = v.answers tr') :
    (commands tr p').map v.sent = (commands tr' q').map v.sent
      ∧ List.Forall₂ (fun a b => v.alike a.1 b.1 a.2 b.2) (spans s tr p') (spans t tr' q') := by
  induction hp generalizing q s t tr' with
  | nil p =>
      cases hq with
      | nil =>
          refine ⟨?_, .cons h.alike .nil⟩
          have hcommand := congrArg Option.toList h.command
          rw [Option.toList_map, Option.toList_map] at hcommand
          exact hcommand
      | cons r s' hq => cases hanswers
  | cons r s' hp ih =>
      cases hq with
      | nil => cases hanswers
      | cons r' t' hq =>
          obtain ⟨hbefore, hsent, hk⟩ := h
          obtain ⟨hgot, hrest⟩ := List.cons.inj hanswers
          obtain ⟨hcommands, hspans⟩ := ih (hk r r' s' t' hgot) hq hrest
          exact ⟨congrArg₂ List.cons hsent hcommands, .cons hbefore hspans⟩

end Coroutine
