import Mathlib.Data.List.Forall2
import Resumable.Ty

/-!
Moving a type from the context of one owner into that of the other. A move acts on each type
parameter by itself and keeps the rest of the type, so what it does to a type follows from what
it does to a parameter: when there is a result, whose parameters the result mentions, and which
types come back when they are moved there and back again.
-/

namespace Resumable

/-- What moving a type from one context to the other makes of a parameter in it. -/
inductive TypeParam.Moves (source target : Owner) (names : List String) : TypeParam → TypeParam → Prop
  | moved {index : Nat} {old name : String} (declared : names[index]? = some name) :
    Moves source target names ⟨source, index, old⟩ ⟨target, index, name⟩
  | kept {param : TypeParam} (foreign : param.owner ≠ source) : Moves source target names param param

namespace TypeParam
variable {source target : Owner} {names : List String} {param param' : TypeParam}

theorem exists_moves :
    (∃ param', Moves source target names param param') ↔
      (param.owner = source → param.index < names.length) := by
  constructor
  · rintro ⟨_, moves⟩ own
    cases moves with
    | moved declared => exact (List.getElem?_eq_some_iff.mp declared).1
    | kept foreign => exact absurd own foreign
  · intro inside
    by_cases own : param.owner = source
    · obtain ⟨owner, index, old⟩ := param
      obtain rfl : owner = source := own
      exact ⟨_, .moved (List.getElem?_eq_getElem (inside rfl))⟩
    · exact ⟨param, .kept own⟩

theorem Moves.owner_ne (moves : Moves source target names param param') (apart : source ≠ target) :
    param'.owner ≠ source := by
  cases moves with
  | moved => exact apart.symm
  | kept foreign => exact foreign

theorem Moves.owner_eq_target (moves : Moves source target names param param') :
    param'.owner = target ↔ param.owner = source ∨ param.owner = target := by
  cases moves with
  | moved => simp
  | kept foreign => simp [foreign]

/-- What comes back is not the target's and, when it is the source's, has the declared name. -/
theorem exists_moves_back (apart : source ≠ target) :
    (∃ param', Moves source target names param param' ∧ Moves target source names param' param) ↔
      param.owner ≠ target ∧ (param.owner = source → names[param.index]? = some param.name) := by
  constructor
  · rintro ⟨param', there, back⟩
    refine ⟨back.owner_ne apart.symm, fun own => ?_⟩
    cases back with
    | moved declared => exact declared
    | kept foreign =>
      -- A parameter of the source that was left alone on the way back never became the target's.
      exact absurd (there.owner_eq_target.mpr (.inl own)) foreign
  · rintro ⟨foreign, declared⟩
    by_cases own : param.owner = source
    · obtain ⟨owner, index, name⟩ := param
      obtain rfl : owner = source := own
      exact ⟨⟨target, index, name⟩, .moved (declared rfl), .moved (declared rfl)⟩
    · exact ⟨param, .kept own, .kept foreign⟩

end TypeParam

namespace Ty
open TypeParam (Moves)

mutual
/-- The type parameters that occur, at any depth. -/
def params : Ty → List TypeParam
  | .int | .bool | .str | .object => []
  | .array element => params element
  | .named _ args => paramsAll args
  | .contract _ args => paramsAll args
  | .param parameter => [parameter]

def paramsAll : List Ty → List TypeParam
  | [] => []
  | ty :: rest => params ty ++ paramsAll rest
end

section
variable {owner : Owner}

mutual
theorem mentions_eq_false : (ty : Ty) →
    (ty.mentions owner = false ↔ ∀ param ∈ ty.params, param.owner ≠ owner)
  | .int | .bool | .str | .object => by simp [mentions, params]
  | .array element => mentions_eq_false element
  | .named _ args => anyMentions_eq_false args
  | .contract _ args => anyMentions_eq_false args
  | .param parameter => by simp [mentions, params]

theorem anyMentions_eq_false : (tys : List Ty) →
    (anyMentions owner tys = false ↔ ∀ param ∈ paramsAll tys, param.owner ≠ owner)
  | [] => by simp [anyMentions, paramsAll]
  | ty :: rest => by
    rw [anyMentions, Bool.or_eq_false_iff, mentions_eq_false ty, anyMentions_eq_false rest, paramsAll,
      List.forall_mem_append]
end

end

section
variable {source target : Owner} {names : List String}

@[simp] theorem rebind?_array (element : Ty) :
    (array element).rebind? source target names = (element.rebind? source target names).map array :=
  Option.map_eq_bind.symm

@[simp] theorem rebind?_named (name : String) (args : List Ty) :
    (named name args).rebind? source target names =
      (rebindAll? source target names args).map (named name) :=
  Option.map_eq_bind.symm

@[simp] theorem rebind?_contract (kind : Contract) (args : List Ty) :
    (contract kind args).rebind? source target names =
      (rebindAll? source target names args).map (contract kind) :=
  Option.map_eq_bind.symm

theorem rebind?_param {parameter : TypeParam} {ty : Ty} :
    (param parameter).rebind? source target names = some ty ↔
      ∃ parameter', Moves source target names parameter parameter' ∧ param parameter' = ty := by
  obtain ⟨owner, index, old⟩ := parameter
  rw [rebind?]
  constructor
  · intro done
    split at done
    · next own =>
      obtain ⟨name, declared, same⟩ := Option.bind_eq_some_iff.mp done
      obtain rfl : owner = source := own
      exact ⟨_, .moved declared, Option.some.inj same⟩
    · next foreign => exact ⟨_, .kept foreign, Option.some.inj done⟩
  · rintro ⟨_, moves, rfl⟩
    cases moves with
    | moved declared => simp [declared]
    | kept foreign => exact if_neg foreign

theorem rebindAll?_cons {ty : Ty} {rest tys : List Ty} :
    rebindAll? source target names (ty :: rest) = some tys ↔
      ∃ ty' rest', ty.rebind? source target names = some ty' ∧
        rebindAll? source target names rest = some rest' ∧ ty' :: rest' = tys := by
  simp [rebindAll?, Option.bind_eq_some_iff]

mutual
/-- Moving a type moves each of its parameters. -/
theorem moves_rebind? : (ty : Ty) → {ty' : Ty} → ty.rebind? source target names = some ty' →
    List.Forall₂ (Moves source target names) ty.params ty'.params
  | .int, _, done | .bool, _, done | .str, _, done | .object, _, done => by
    obtain rfl := Option.some.inj done
    exact .nil
  | .array element, _, done => by
    obtain ⟨element', moved, same⟩ := Option.bind_eq_some_iff.mp done
    obtain rfl := Option.some.inj same
    show List.Forall₂ _ element.params element'.params
    exact moves_rebind? element moved
  | .named _ args, _, done => by
    obtain ⟨args', moved, same⟩ := Option.bind_eq_some_iff.mp done
    obtain rfl := Option.some.inj same
    exact moves_rebindAll? args moved
  | .contract _ args, _, done => by
    obtain ⟨args', moved, same⟩ := Option.bind_eq_some_iff.mp done
    obtain rfl := Option.some.inj same
    exact moves_rebindAll? args moved
  | .param _, _, done => by
    obtain ⟨_, moves, rfl⟩ := rebind?_param.mp done
    exact .cons moves .nil

theorem moves_rebindAll? : (tys : List Ty) → {tys' : List Ty} →
    rebindAll? source target names tys = some tys' →
    List.Forall₂ (Moves source target names) (paramsAll tys) (paramsAll tys')
  | [], _, done => by
    obtain rfl := Option.some.inj done
    exact .nil
  | ty :: rest, _, done => by
    obtain ⟨ty', rest', moved, movedRest, rfl⟩ := rebindAll?_cons.mp done
    exact List.rel_append (moves_rebind? ty moved) (moves_rebindAll? rest movedRest)
end

/-- A property of parameters that moves respect holds of all parameters on both sides or on neither. -/
theorem forall_params_rebind? {ty ty' : Ty} {before after : TypeParam → Prop}
    (done : ty.rebind? source target names = some ty')
    (same : ∀ param param', Moves source target names param param' → (before param ↔ after param')) :
    (∀ param ∈ ty.params, before param) ↔ ∀ param ∈ ty'.params, after param := by
  have moves := moves_rebind? ty done
  -- The induction is on the pairs of parameters, whatever types they come from.
  generalize ty.params = first, ty'.params = second at moves ⊢
  induction moves with
  | nil => simp
  | cons here _ ih =>
    rw [List.forall_mem_cons, List.forall_mem_cons]
    exact and_congr (same _ _ here) ih

mutual
theorem exists_rebind? : (ty : Ty) →
    ((∃ ty', ty.rebind? source target names = some ty') ↔
      ∀ param ∈ ty.params, ∃ param', Moves source target names param param')
  | .int | .bool | .str | .object => by simp [rebind?, params]
  | .array element => by simpa [Option.map_eq_some_iff, params] using exists_rebind? element
  | .named _ args => by simpa [Option.map_eq_some_iff, params] using exists_rebindAll? args
  | .contract _ args => by simpa [Option.map_eq_some_iff, params] using exists_rebindAll? args
  | .param parameter => by simp [rebind?_param, params]

theorem exists_rebindAll? : (tys : List Ty) →
    ((∃ tys', rebindAll? source target names tys = some tys') ↔
      ∀ param ∈ paramsAll tys, ∃ param', Moves source target names param param')
  | [] => by simp [rebindAll?, paramsAll]
  | ty :: rest => by
    rw [paramsAll, List.forall_mem_append, ← exists_rebind? ty, ← exists_rebindAll? rest]
    simp [rebindAll?_cons]
end

mutual
/-- A type comes back exactly when each of its parameters does. -/
theorem exists_rebind?_back : (ty : Ty) →
    ((∃ ty', ty.rebind? source target names = some ty' ∧ ty'.rebind? target source names = some ty) ↔
      ∀ param ∈ ty.params, ∃ param', Moves source target names param param' ∧
        Moves target source names param' param)
  | .int | .bool | .str | .object => by simp [rebind?, params]
  | .array element => by simpa [Option.map_eq_some_iff, params] using exists_rebind?_back element
  | .named _ args => by simpa [Option.map_eq_some_iff, params] using exists_rebindAll?_back args
  | .contract _ args => by simpa [Option.map_eq_some_iff, params] using exists_rebindAll?_back args
  | .param parameter => by simp [rebind?_param, params]

theorem exists_rebindAll?_back : (tys : List Ty) →
    ((∃ tys', rebindAll? source target names tys = some tys' ∧
        rebindAll? target source names tys' = some tys) ↔
      ∀ param ∈ paramsAll tys, ∃ param', Moves source target names param param' ∧
        Moves target source names param' param)
  | [] => by simp [rebindAll?, paramsAll]
  | ty :: rest => by
    rw [paramsAll, List.forall_mem_append, ← exists_rebind?_back ty, ← exists_rebindAll?_back rest]
    constructor
    · rintro ⟨_, there, back⟩
      obtain ⟨ty', rest', moved, movedRest, rfl⟩ := rebindAll?_cons.mp there
      obtain ⟨_, _, returned, returnedRest, same⟩ := rebindAll?_cons.mp back
      obtain ⟨rfl, rfl⟩ := List.cons.inj same
      exact ⟨⟨ty', moved, returned⟩, rest', movedRest, returnedRest⟩
    · rintro ⟨⟨ty', moved, returned⟩, rest', movedRest, returnedRest⟩
      exact ⟨ty' :: rest', rebindAll?_cons.mpr ⟨ty', rest', moved, movedRest, rfl⟩,
        rebindAll?_cons.mpr ⟨ty, rest, returned, returnedRest, rfl⟩⟩
end

theorem mentions_source_of_rebind? {ty ty' : Ty} (apart : source ≠ target)
    (done : ty.rebind? source target names = some ty') : ty'.mentions source = false := by
  have same : (∀ param ∈ ty.params, True) ↔ ∀ param ∈ ty'.params, param.owner ≠ source :=
    forall_params_rebind? done fun _ _ moves => iff_of_true trivial (moves.owner_ne apart)
  exact (mentions_eq_false ty').mpr (same.mp fun _ _ => trivial)

theorem mentions_target_of_rebind? {ty ty' : Ty} (done : ty.rebind? source target names = some ty') :
    ty'.mentions target ↔ ty.mentions source ∨ ty.mentions target := by
  have same : (∀ param ∈ ty.params, param.owner ≠ source ∧ param.owner ≠ target) ↔
      ∀ param ∈ ty'.params, param.owner ≠ target :=
    forall_params_rebind? done fun _ _ moves => by rw [← not_or, ← moves.owner_eq_target]
  rw [← not_iff_not, not_or]
  simp only [Bool.not_eq_true, mentions_eq_false, ← same, forall_and]

end

/-- Moving a type into another context can be undone. There is a result exactly when each index has
a name, the result has left the source for the target, and the types that come back are those that
are free of the target and have the declared names. -/
theorem rebinding_invertible {source target : Owner} (apart : source ≠ target) (names : List String)
    (ty : Ty) :
    ((ty.rebind? source target names).isSome ↔
      ∀ param ∈ ty.params, param.owner = source → param.index < names.length) ∧
    (∀ ty', ty.rebind? source target names = some ty' → ty'.mentions source = false ∧
      (ty'.mentions target ↔ ty.mentions source ∨ ty.mentions target)) ∧
    ((∃ ty', ty.rebind? source target names = some ty' ∧ ty'.rebind? target source names = some ty) ↔
      ty.mentions target = false ∧
        ∀ param ∈ ty.params, param.owner = source → names[param.index]? = some param.name) := by
  refine ⟨?_, ?_, ?_⟩
  · rw [Option.isSome_iff_exists, exists_rebind?]
    simp only [TypeParam.exists_moves]
  · intro ty' done
    exact ⟨mentions_source_of_rebind? apart done, mentions_target_of_rebind? done⟩
  · rw [exists_rebind?_back, mentions_eq_false]
    simp only [TypeParam.exists_moves_back apart, forall_and]

/-- A pair of the first parameter and an array of the second. -/
def genericPair : Ty := .named "Pair" [.methodParam 0 "T", .array (.methodParam 1 "U")]

theorem rebinding_invertible_genericPair : Owner.method ≠ .machine ∧
    ¬((enumerableOf genericPair).rebind? .method .machine ["T"]).isSome ∧
    ∃ ty', (enumerableOf genericPair).rebind? .method .machine ["T", "U"] = some ty' ∧
      ty'.mentions .method = false ∧ ty'.mentions .machine ∧
      ty'.rebind? .machine .method ["T", "U"] = some (enumerableOf genericPair) := by
  have apart : Owner.method ≠ .machine := by decide
  obtain ⟨short, _, _⟩ := rebinding_invertible apart ["T"] (enumerableOf genericPair)
  obtain ⟨_, mentions, back⟩ := rebinding_invertible apart ["T", "U"] (enumerableOf genericPair)
  obtain ⟨ty', there, again⟩ := back.mpr (by decide)
  obtain ⟨free, target⟩ := mentions ty' there
  exact ⟨apart, fun found => absurd (short.mp found) (by decide), ty', there, free,
    target.mpr (.inl (by decide)), again⟩

end Ty
end Resumable
