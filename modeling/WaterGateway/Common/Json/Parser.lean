import WaterGateway.Common.Json.Lexer

/-!
# The parser of JSON

Scalars are made by the lexer alone: a scalar that the parser finds under a
name stands among the tokens (`members_from`). The tokens of an object of
numbers are parsed to its members.
-/

namespace WaterGateway

namespace Json

variable {ts : List Token}

/-! ## Where the scalars come from -/

/-- The scalars among the members are tokens. -/
def MembersFrom (ts : List Token) (ms : List (List ℕ × Value)) : Prop :=
  ∀ a ∈ ms, ∀ s, a.2 = .scalar s → .scalar s ∈ ts

/-- The same of a value, at its first level. -/
def Value.From (ts : List Token) : Value → Prop
  | .scalar s => .scalar s ∈ ts
  | .arr _ => True
  | .obj ms => MembersFrom ts ms

def Point.From (ts : List Token) : Point → Prop
  | .value | .first | .firstName => True
  | .name ms | .colon ms _ => MembersFrom ts ms
  | .done v => v.From ts

def Frame.From (ts : List Token) : Frame → Prop
  | .arr _ => True
  | .obj ms _ => MembersFrom ts ms

def Parser.From (ts : List Token) (p : Parser) : Prop :=
  p.point.From ts ∧ ∀ f ∈ p.stack, f.From ts

theorem MembersFrom.nil : MembersFrom ts [] := fun _ ha => absurd ha List.not_mem_nil

theorem MembersFrom.concat {ms : List (List ℕ × Value)} {k : List ℕ} {v : Value}
    (h : MembersFrom ts ms) (hv : v.From ts) : MembersFrom ts (ms ++ [(k, v)]) := by
  intro a ha s hs
  rcases List.mem_append.1 ha with ha | ha
  · exact h a ha s hs
  · obtain rfl := List.mem_singleton.1 ha
    obtain rfl : v = .scalar s := hs
    exact hv

theorem valueStep_from {stack : List Frame} {t : Token} {p : Parser}
    (hstack : ∀ f ∈ stack, f.From ts) (ht : t ∈ ts) (h : valueStep stack t = some p) :
    p.From ts := by
  unfold valueStep at h
  split at h
  · cases h
    exact ⟨ht, hstack⟩
  · cases h
    exact ⟨trivial, hstack⟩
  · cases h
    exact ⟨trivial, hstack⟩
  · cases h

theorem Parser.From.step {p p' : Parser} {t : Token} (hp : p.From ts) (ht : t ∈ ts)
    (h : parseStep p t = some p') : p'.From ts := by
  obtain ⟨hpoint, hstack⟩ := hp
  unfold parseStep at h
  split at h
  · exact valueStep_from hstack ht h
  · cases h
    exact ⟨trivial, hstack⟩
  · have hframe : Frame.From ts (.arr []) := trivial
    exact valueStep_from (List.forall_mem_cons.2 ⟨hframe, hstack⟩) ht h
  · cases h
    exact ⟨MembersFrom.nil, hstack⟩
  · cases h
    exact ⟨MembersFrom.nil, hstack⟩
  · next ms k hms =>
    cases h
    rw [hms] at hpoint
    exact ⟨hpoint, hstack⟩
  · next ms k hms =>
    cases h
    rw [hms] at hpoint
    exact ⟨trivial, List.forall_mem_cons.2 ⟨hpoint, hstack⟩⟩
  · next v hv =>
    -- the value goes into the container on top of the stack
    rw [hv] at hpoint
    split at h
    · next vs stack hs =>
      cases h
      rw [hs] at hstack
      exact ⟨trivial, List.forall_mem_cons.2 ⟨trivial, (List.forall_mem_cons.1 hstack).2⟩⟩
    · next vs stack hs =>
      cases h
      rw [hs] at hstack
      exact ⟨trivial, (List.forall_mem_cons.1 hstack).2⟩
    · next ms k stack hs =>
      cases h
      rw [hs] at hstack
      obtain ⟨hms, hrest⟩ := List.forall_mem_cons.1 hstack
      exact ⟨MembersFrom.concat hms hpoint, hrest⟩
    · next ms k stack hs =>
      cases h
      rw [hs] at hstack
      obtain ⟨hms, hrest⟩ := List.forall_mem_cons.1 hstack
      exact ⟨MembersFrom.concat hms hpoint, hrest⟩
    · cases h
  · cases h

/-- **A scalar that is read under a name stands among the tokens.** -/
theorem members_from {ms : List (List ℕ × Value)} (h : parse ts = some (.obj ms)) :
    MembersFrom ts ms := by
  unfold parse at h
  split at h
  · next v hrun =>
    cases h
    have hinit : Parser.From ts ⟨.value, []⟩ := ⟨trivial, fun f hf => absurd hf List.not_mem_nil⟩
    have hfrom : Parser.From ts ⟨.done (.obj ms), []⟩ := Run.exec_invariant_along
      (I := Parser.From ts) (C := fun _ t => t ∈ ts) (fun p t p' hp ht hstep => hp.step ht hstep)
      hinit (Run.along_of_forall (fun t ht => ht) _) hrun
    exact hfrom.1
  · cases h

theorem mem_of_lookup {name : List ℕ} {ms : List (List ℕ × Value)} {v : Value}
    (h : lookup name ms = some v) : (name, v) ∈ ms := by
  obtain ⟨⟨k, v'⟩, hfind, rfl⟩ := Option.map_eq_some_iff.1 h
  obtain rfl : k = name := by simpa using List.find?_some hfind
  exact List.mem_reverse.1 (List.mem_of_find?_eq_some hfind)

theorem isSome_lookup {name : List ℕ} {ms : List (List ℕ × Value)}
    (h : name ∈ ms.map Prod.fst) : (lookup name ms).isSome = true := by
  obtain ⟨a, ha, rfl⟩ := List.mem_map.1 h
  rw [lookup, Option.isSome_map, List.find?_isSome]
  exact ⟨a, List.mem_reverse.2 ha, decide_eq_true rfl⟩

/-! ## Objects of numbers -/

/-- **Members of numbers are parsed** behind a first member. -/
theorem exec_members {fs : List (List ℕ × List ℕ)} {ms : List (List ℕ × Value)} {k : List ℕ}
    {v : Value} :
    Run.exec parseStep ⟨.done v, [.obj ms k]⟩ (fs.flatMap memberTokens ++ [.rbrace]) =
      some ⟨.done (.obj (ms ++ (k, v) :: fs.map fun f => (f.1, .scalar (.num f.2)))), []⟩ := by
  induction fs generalizing ms k v with
  | nil => rfl
  | cons f fs ih =>
    have hfirst : Run.exec parseStep ⟨.done v, [.obj ms k]⟩ (memberTokens f) =
        some ⟨.done (.scalar (.num f.2)), [.obj (ms ++ [(k, v)]) f.1]⟩ := rfl
    rw [List.flatMap_cons, List.append_assoc, Run.exec_append, hfirst, Option.bind_some, ih,
      List.append_assoc, List.singleton_append, List.map_cons]

/-- **An object of a scalar and numbers** is parsed to its members. -/
theorem parse_object (k : List ℕ) (s : Scalar) (fs : List (List ℕ × List ℕ)) :
    parse (.lbrace :: .scalar (.str k) :: .colon :: .scalar s ::
        (fs.flatMap memberTokens ++ [.rbrace])) =
      some (.obj ((k, .scalar s) :: fs.map fun f => (f.1, .scalar (.num f.2)))) := by
  have hfirst : Run.exec parseStep ⟨.value, []⟩
      [.lbrace, .scalar (.str k), .colon, .scalar s] =
        some ⟨.done (.scalar s), [.obj [] k]⟩ := rfl
  have htokens : .lbrace :: .scalar (.str k) :: .colon :: .scalar s ::
      (fs.flatMap memberTokens ++ [.rbrace]) =
        [.lbrace, .scalar (.str k), .colon, .scalar s] ++
          (fs.flatMap memberTokens ++ [.rbrace]) := rfl
  rw [htokens, parse, Run.exec_append, hfirst, Option.bind_some, exec_members, List.nil_append]

/-- The first member, where no other has its name. -/
theorem lookup_cons_of_ne {name : List ℕ} {ms : List (List ℕ × Value)} {v : Value}
    (h : ∀ a ∈ ms, a.1 ≠ name) : lookup name ((name, v) :: ms) = some v := by
  have hnone : ms.reverse.find? (fun m => m.1 = name) = none := by
    rw [List.find?_eq_none]
    intro a ha
    simpa using h a (List.mem_reverse.1 ha)
  rw [lookup, List.reverse_cons, List.find?_append, hnone, Option.none_or]
  simp

end Json

end WaterGateway
