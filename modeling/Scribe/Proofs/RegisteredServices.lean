import Scribe.Registry.Basic

/-! What a change to one service of a registry means for the others. A kind is looked up by the number
of its instance, and an instance that is changed keeps its number and its kind. -/

namespace Scribe.Registry

variable {ι : Type} [DecidableEq ι] {σ : ι → Type} {kind other : ι}

theorem instances_of_read? {registry : Registry σ} {number : Nat} {service : σ kind}
    (held : registry.read? kind number = some service) :
    registry.instances[number]? = some ⟨kind, service⟩ := by
  unfold read? at held
  split at held
  next found instanceOf stored =>
    split at held
    next same =>
      subst same
      cases held
      exact stored
    next => cases held
  next => cases held

theorem read?_write_self {registry : Registry σ} {number : Nat} {old : σ kind} (service : σ kind)
    (held : registry.read? kind number = some old) :
    (registry.write kind number service).read? kind number = some service := by
  have inside := (Array.getElem?_eq_some_iff.mp (instances_of_read? held)).1
  simp [read?, write, inside]

theorem read?_write_other {registry : Registry σ} {number : Nat} {old : σ kind} (service : σ kind)
    (held : registry.read? kind number = some old) (different : kind ≠ other) (place : Nat) :
    (registry.write kind number service).read? other place = registry.read? other place := by
  obtain ⟨inside, stored⟩ := Array.getElem?_eq_some_iff.mp (instances_of_read? held)
  by_cases same : number = place
  · subst same
    simp [read?, write, inside, stored, different]
  · simp [read?, write, same]

theorem get?_modify_self (registry : Registry σ) (kind : ι) (change : σ kind → σ kind) :
    (registry.modify kind change).get? kind = (registry.get? kind).map change := by
  cases numbered : registry.number? kind with
  | none => simp [modify, get?, numbered]
  | some number =>
    cases held : registry.read? kind number with
    | none => simp [modify, get?, numbered, held]
    | some service =>
      have written := read?_write_self (change service) held
      have unmoved : (registry.write kind number (change service)).number? kind = some number := numbered
      simp [modify, get?, numbered, held, unmoved, written]

theorem get?_modify_other (registry : Registry σ) (change : σ kind → σ kind)
    (different : kind ≠ other) :
    (registry.modify kind change).get? other = registry.get? other := by
  cases numbered : registry.number? kind with
  | none => simp [modify, numbered]
  | some number =>
    cases held : registry.read? kind number with
    | none => simp [modify, numbered, held]
    | some service =>
      have unmoved : (registry.write kind number (change service)).number? other = registry.number? other := rfl
      simp only [modify, get?, numbered, held, unmoved]
      congr 1
      funext place
      exact read?_write_other (change service) held different place

theorem modify_of_missing {registry : Registry σ} (missing : registry.get? kind = none)
    (change : σ kind → σ kind) : registry.modify kind change = registry := by
  cases numbered : registry.number? kind with
  | none => simp only [modify, numbered]
  | some number =>
    have unread : registry.read? kind number = none := by simpa [get?, numbered] using missing
    simp only [modify, numbered, unread]

theorem modify_congr {registry : Registry σ} {service : σ kind} {first second : σ kind → σ kind}
    (held : registry.get? kind = some service) (same : first service = second service) :
    registry.modify kind first = registry.modify kind second := by
  cases numbered : registry.number? kind with
  | none => simp only [modify, numbered]
  | some number =>
    have read : registry.read? kind number = some service := by simpa [get?, numbered] using held
    simp only [modify, numbered, read, same]

end Scribe.Registry
