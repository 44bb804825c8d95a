import Mathlib.Order.Lattice
import AtsigCommon.Python.Values

/-!
# Keys that expire

The part of a key-value server that holds texts and hashes, with the commands that read and write
them.  A key may have a deadline, at which it is gone; and any key may go before, when the server
needs the room.

* `Server.exec` — the commands.
* `Server.Drifts` — time passes and keys go.
* `Server.All` — something holds of all that stands under the keys.  `All.exec` and `All.drifts`
  are its rules: a command has to keep it for the one key that it writes.
-/

namespace Keyspace

open Python

variable {κ τ T : Type}

/-- What stands under a key. -/
inductive Value (τ : Type)
  | text (s : τ)
  | hash (h : Dict τ τ)

structure Entry (τ T : Type) where
  value : Value τ
  deadline : Option T

/-- The time on the server, and its keys. -/
structure Server (κ τ T : Type) where
  now : T
  keys : κ → Option (Entry τ T)

inductive Command (κ τ T : Type)
  | get (key : κ)
  /-- `SET key text EX ttl` -/
  | set (key : κ) (text : τ) (ttl : T)
  | hgetall (key : κ)
  | hdel (key : κ) (fields : List τ)
  | hset (key : κ) (mapping : Dict τ τ)
  | expire (key : κ) (ttl : T)

def Command.Answer : Command κ τ T → Type
  | .get _ => Option τ
  | .hgetall _ => Dict τ τ
  | _ => Unit

/-! ## The commands -/

section Commands

variable [DecidableEq κ]

/-- The entry, or nothing, under a key. -/
def Server.put (s : Server κ τ T) (k : κ) (e : Option (Entry τ T)) : Server κ τ T :=
  { s with keys := Function.update s.keys k e }

section Put

variable {s : Server κ τ T}

@[simp] lemma Server.put_now (k : κ) (e : Option (Entry τ T)) : (s.put k e).now = s.now := rfl

@[simp] lemma Server.put_self (k : κ) (e : Option (Entry τ T)) : (s.put k e).keys k = e :=
  Function.update_self ..

lemma Server.put_of_ne {k k' : κ} (h : k' ≠ k) (e : Option (Entry τ T)) :
    (s.put k e).keys k' = s.keys k' := Function.update_of_ne h ..

end Put

variable [DecidableEq τ] [Add T]

/-- What a command answers, and the server after it.  No answer is the error `WRONGTYPE`. -/
def Server.exec (s : Server κ τ T) : (c : Command κ τ T) → Option c.Answer × Server κ τ T
  | .get k =>
      match s.keys k with
      | none => (some (none : Option τ), s)
      | some ⟨.text v, _⟩ => (some (some v), s)
      | some ⟨.hash _, _⟩ => (none, s)
  | .set k v ttl => (some (), s.put k (some ⟨.text v, some (s.now + ttl)⟩))
  | .hgetall k =>
      match s.keys k with
      | none => (some (Dict.empty : Dict τ τ), s)
      | some ⟨.hash h, _⟩ => (some h, s)
      | some ⟨.text _, _⟩ => (none, s)
  | .hdel k fields =>
      match s.keys k with
      | none => (some (), s)
      | some ⟨.hash h, d⟩ =>
          -- a hash without fields is gone, and its deadline with it
          if (h.erase fields).items.isEmpty then (some (), s.put k none)
          else (some (), s.put k (some ⟨.hash (h.erase fields), d⟩))
      | some ⟨.text _, _⟩ => (none, s)
  | .hset k mapping =>
      match s.keys k with
      | none => (some (), s.put k (some ⟨.hash mapping, none⟩))
      | some ⟨.hash h, d⟩ => (some (), s.put k (some ⟨.hash (h.merge mapping), d⟩))
      | some ⟨.text _, _⟩ => (none, s)
  | .expire k ttl =>
      match s.keys k with
      | none => (some (), s)
      | some e => (some (), s.put k (some { e with deadline := some (s.now + ttl) }))

/-- The server may give the fields of a hash in any order. -/
def Command.Reordered : (c : Command κ τ T) → Option c.Answer → Option c.Answer → Prop
  | .hgetall _, some (d : Dict τ τ), some (d' : Dict τ τ) => ∀ f, d'.get? f = d.get? f
  | _, r, r' => r' = r

omit [DecidableEq κ] [Add T] in
lemma Command.Reordered.hgetall {k : κ} {d : Dict τ τ} {r : Option (Dict τ τ)}
    (h : (Command.hgetall k : Command κ τ T).Reordered (some d) r) :
    ∃ d', r = some d' ∧ ∀ f, d'.get? f = d.get? f := by
  cases r with
  | none => cases h
  | some d' => exact ⟨d', rfl, h⟩

omit [DecidableEq κ] [Add T] in
/-- The order in which the server has the fields is one that it may give. -/
lemma Command.reordered_self (c : Command κ τ T) (r : Option c.Answer) : c.Reordered r r := by
  cases c with
  | hgetall k =>
      cases r with
      | none => exact rfl
      | some d => exact fun _ => rfl
  | _ => exact rfl

/-- The server answers `r` and becomes `s'`. -/
def Server.Answers (s : Server κ τ T) (c : Command κ τ T) (r : Option c.Answer)
    (s' : Server κ τ T) : Prop :=
  c.Reordered (s.exec c).1 r ∧ s' = (s.exec c).2

variable {s : Server κ τ T}

/-- The clock does not run while a command is executed. -/
@[simp] lemma Server.exec_now (c : Command κ τ T) : (s.exec c).2.now = s.now := by
  cases c with
  | set k v ttl => rfl
  | get k | hgetall k | hset k mapping | expire k ttl =>
      rw [exec]
      split <;> rfl
  | hdel k fields =>
      rw [exec]
      split
      · rfl
      · split <;> rfl
      · rfl

end Commands

/-! ## Time -/

section Time

variable [LinearOrder T]

/-- Time passes: what has reached its deadline is gone, and anything else may be. -/
structure Server.Drifts (s s' : Server κ τ T) : Prop where
  later : s.now ≤ s'.now
  kept : ∀ k e, s'.keys k = some e → s.keys k = some e
  gone : ∀ k e d, s'.keys k = some e → e.deadline = some d → s'.now < d

/-- Time passes, and one key is left. -/
lemma Server.drifts_put [DecidableEq κ] {s : Server κ τ T} {k : κ} {e : Entry τ T} {t d : T}
    (hkey : s.keys k = some e) (hdeadline : e.deadline = some d) (hlater : s.now ≤ t)
    (hbefore : t < d) : s.Drifts ((⟨t, fun _ => none⟩ : Server κ τ T).put k (some e)) where
  later := hlater
  kept k' e' he' := by
    by_cases hk : k' = k
    · rw [hk, put_self] at he'
      rw [hk, hkey, he']
    · rw [put_of_ne hk] at he'
      cases he'
  gone k' e' d' he' hd' := by
    by_cases hk : k' = k
    · rw [hk, put_self] at he'
      obtain rfl := Option.some.inj he'
      rw [hdeadline] at hd'
      exact Option.some.inj hd' ▸ hbefore
    · rw [put_of_ne hk] at he'
      cases he'

end Time

/-! ## What holds of every key -/

/-- Something holds of all that stands under the keys. -/
def Server.All (P : κ → Entry τ T → Prop) (s : Server κ τ T) : Prop :=
  ∀ k e, s.keys k = some e → P k e

/-- **What goes does no harm.** -/
lemma Server.All.drifts [LinearOrder T] {P : κ → Entry τ T → Prop} {s s' : Server κ τ T}
    (h : s.All P) (hs : s.Drifts s') : s'.All P :=
  fun k e he => h k e (hs.kept k e he)

section Rule

variable [DecidableEq κ] [DecidableEq τ] [Add T] {s : Server κ τ T} {P : κ → Entry τ T → Prop}

/-- The command keeps `P` for the key that it writes. -/
def Command.Keeps (P : κ → Entry τ T → Prop) (s : Server κ τ T) : Command κ τ T → Prop
  | .set k v ttl => P k ⟨.text v, some (s.now + ttl)⟩
  | .hdel k fields => ∀ h d, s.keys k = some ⟨.hash h, d⟩ → P k ⟨.hash (h.erase fields), d⟩
  | .hset k mapping => (s.keys k = none → P k ⟨.hash mapping, none⟩)
      ∧ ∀ h d, s.keys k = some ⟨.hash h, d⟩ → P k ⟨.hash (h.merge mapping), d⟩
  | .expire k ttl =>
      ∀ e, s.keys k = some e → P k { e with deadline := some (s.now + ttl) }
  | .get _ | .hgetall _ => True

omit [DecidableEq τ] [Add T] in
lemma Server.All.put {k : κ} {e : Option (Entry τ T)} (h : s.All P) (he : ∀ x, e = some x → P k x) :
    (s.put k e).All P := by
  intro k' e' he'
  by_cases hk : k' = k
  · subst hk
    rw [put_self] at he'
    exact he e' he'
  · rw [put_of_ne hk] at he'
    exact h k' e' he'

/-- **The rule of the commands.** -/
theorem Server.All.exec {c : Command κ τ T} (h : s.All P) (hc : c.Keeps P s) :
    (s.exec c).2.All P := by
  have hsome : ∀ {k e}, P k e → ∀ x, some e = some x → P k x := by
    rintro k e he _ ⟨⟩
    exact he
  cases c with
  | get k | hgetall k =>
      rw [Server.exec]
      split <;> exact h
  | set k v ttl => exact h.put (hsome hc)
  | hdel k fields =>
      rw [Server.exec]
      split
      · exact h
      · split
        · exact h.put nofun
        · exact h.put (hsome (hc _ _ ‹_›))
      · exact h
  | hset k mapping =>
      rw [Server.exec]
      split
      · exact h.put (hsome (hc.1 ‹_›))
      · exact h.put (hsome (hc.2 _ _ ‹_›))
      · exact h
  | expire k ttl =>
      rw [Server.exec]
      split
      · exact h
      · exact h.put (hsome (hc _ ‹_›))

end Rule

end Keyspace
