import Mathlib.Logic.Function.Basic

/-! Journals: a list of entries that accounts for how a state came to be. `Change s o s'`
says what one entry `o` does to the state; a journal strings entries together. The
rules prove a property of the final state one entry at a time, whatever loops wrote
the entries. -/

namespace SubaccountIndexer.Lib

variable {S O : Type} {Change : S → O → S → Prop} {s t u : S} {o : O} {os os' : List O}

inductive Journal (Change : S → O → S → Prop) : S → List O → S → Prop
  | nil {s : S} : Journal Change s [] s
  | cons {s s' t : S} {o : O} {os : List O} (first : Change s o s')
      (rest : Journal Change s' os t) : Journal Change s (o :: os) t

namespace Journal

theorem single (h : Change s o t) : Journal Change s [o] t := .cons h .nil

theorem append (h : Journal Change s os t) (h' : Journal Change t os' u) :
    Journal Change s (os ++ os') u := by
  induction h with
  | nil => exact h'
  | cons first _ ih => exact .cons first (ih h')

/-- A property of the state and of the entries so far, kept by every entry of the journal -/
theorem history {P : S → List O → Prop} (h : Journal Change s os t) (start : P s [])
    (keep : ∀ s seen o s', o ∈ os → P s seen → Change s o s' → P s' (seen ++ [o])) :
    P t os := by
  suffices ∀ seen, P s seen → P t (seen ++ os) from this [] start
  clear start
  induction h with
  | nil => intro seen hp; simpa using hp
  | cons first _ ih =>
    intro seen hp
    have hnext := keep _ seen _ _ (by simp) hp first
    have hall := ih (fun s seen o s' ho => keep s seen o s' (List.mem_cons_of_mem _ ho)) _ hnext
    simpa using hall

/-- A property of the state kept by every entry of the journal -/
theorem keeps {P : S → Prop} (h : Journal Change s os t) (start : P s)
    (keep : ∀ s o s', o ∈ os → P s → Change s o s' → P s') : P t :=
  h.history (P := fun s _ => P s) start fun s _ o s' ho hp => keep s o s' ho hp

end Journal

end SubaccountIndexer.Lib
