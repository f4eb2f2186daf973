import Mathlib.Data.List.Nodup
import Formula.Value.Hosted

/-! Methods that are looked up on a value by their names. What finds a method by its name is in step
with the names of methods, with the numbers of their arguments and with their answers: a method that
a value has is found by its name, and called with as many arguments as it takes it fails by what the
arguments are or not at all. -/

namespace Formula

/-! ### Numbers of arguments -/

namespace Arity

/-- The least number of arguments. -/
def least : Arity → Nat
  | exactly n => n
  | optional => 0
  | between n _ => n

/-- The greatest number of arguments. -/
def most : Arity → Nat
  | exactly n => n
  | optional => 1
  | between _ n => n

theorem accepts_iff {a : Arity} {n : Nat} : a.accepts n ↔ a.least ≤ n ∧ n ≤ a.most := by
  cases a <;> simp [accepts, least, most]
  omega

end Arity

namespace Method

variable {m : Method} {v : Value} {name : String} {args : List Value}

/-! ### Names -/

/-- The methods of text. -/
def ofText : List Method :=
  [upper, lower, capitalize, title, strip, lstrip, rstrip, startswith, endswith, find, replace,
    split, join, isdigit, isalpha, count]

/-- The methods of lists. -/
def ofList : List Method := [count, index]

/-- The methods of dicts. -/
def ofDict : List Method := [get, keys, values, items]

/-- The methods that a value has. -/
def ofValue : Value → List Method
  | .str _ => ofText
  | .list _ => ofList
  | .dict _ => ofDict
  | _ => []

/-- The methods that a value has are those that are found on it, each by its name and by no other
name. -/
theorem resolve?_eq_some_iff : resolve? v name = some m ↔ m ∈ ofValue v ∧ m.name = name := by
  constructor
  · intro h
    unfold resolve? at h
    split at h <;> cases h <;> exact ⟨List.contains_iff_mem.mp rfl, rfl⟩
  · rintro ⟨hMem, rfl⟩
    cases v with
    | str s =>
      replace hMem : m ∈ ofText := hMem
      cases m <;> first | rfl | exact absurd hMem (by decide)
    | list xs =>
      replace hMem : m ∈ ofList := hMem
      cases m <;> first | rfl | exact absurd hMem (by decide)
    | dict entries =>
      replace hMem : m ∈ ofDict := hMem
      cases m <;> first | rfl | exact absurd hMem (by decide)
    | _ => cases hMem

theorem resolve?_eq_none_iff : resolve? v name = none ↔ ∀ m ∈ ofValue v, m.name ≠ name := by
  simp only [Option.eq_none_iff_forall_ne_some, ne_eq, resolve?_eq_some_iff, not_and]

/-! ### Failures -/

/-- A failure that lies in what the arguments of a method are. -/
inductive Misfit (m : Method) : RuntimeError → Prop
  | type (expected found : String) : Misfit m (.argumentType m.name expected found)
  | value (message : String) : Misfit m (.invalidValue message)

/-- If `x` fails, it is by what the arguments of `m` are, whatever the host says of them. -/
def FailsByArgs (m : Method) {α : Type} (x : Except Complaint α) : Prop :=
  ∀ c, x = .error c → ∀ {σ : Type} (host : Host σ) (s : σ), Misfit m (c.told host s).1

section FailsByArgs

variable {α β : Type} {x : Except Complaint α}

theorem failsByArgs_ok (m : Method) (a : α) : m.FailsByArgs (.ok a) := nofun

theorem FailsByArgs.bind {f : α → Except Complaint β} (h : m.FailsByArgs x)
    (hf : ∀ a, m.FailsByArgs (f a)) : m.FailsByArgs (x >>= f) := by
  cases x with
  | error c' =>
    rintro c ⟨⟩
    exact h c' rfl
  | ok a => exact hf a

theorem FailsByArgs.map (h : m.FailsByArgs x) (f : α → β) : m.FailsByArgs (x.map f) := by
  cases x with
  | error c' =>
    rintro c ⟨⟩
    exact h c' rfl
  | ok a => exact failsByArgs_ok m (f a)

theorem failsByArgs_mismatch (m : Method) (expected : String) (found : Value) :
    m.FailsByArgs (.error (.argumentType m.name expected found) : Except Complaint α) := by
  rintro c ⟨⟩ σ host s
  exact .type expected (found.typeName host s).1

theorem failsByArgs_invalid (m : Method) (message : String) :
    m.FailsByArgs (.error (.invalidValue message) : Except Complaint α) := by
  rintro c ⟨⟩ σ host s
  exact .value message

theorem failsByArgs_notInList (m : Method) (item : Value) :
    m.FailsByArgs (.error (.notInList item) : Except Complaint α) := by
  rintro c ⟨⟩ σ host s
  exact .value _

theorem failsByArgs_textArg (m : Method) (v : Value) : m.FailsByArgs (m.textArg v) := by
  cases v with
  | str s => exact failsByArgs_ok m _
  | _ => exact failsByArgs_mismatch m _ _

theorem failsByArgs_textArg? (m : Method) (args : List Value) :
    m.FailsByArgs (m.textArg? args) := by
  unfold textArg?
  split
  case h_1 | h_2 => exact failsByArgs_ok m _
  case h_3 v _ _ => exact (failsByArgs_textArg m v).map some

theorem failsByArgs_mapM (m : Method) (xs : List Value) :
    m.FailsByArgs (xs.mapM m.textArg) := by
  induction xs with
  | nil => exact failsByArgs_ok m _
  | cons v xs ih =>
    rw [List.mapM_cons]
    exact (failsByArgs_textArg m v).bind fun cs => ih.bind fun rest => failsByArgs_ok m _

theorem failsByArgs_replaced (cs old new : List Char) (rest : List Value) :
    replace.FailsByArgs (replaced cs old new rest) := by
  cases rest with
  | nil => exact failsByArgs_ok _ _
  | cons v rest =>
    cases v with
    | int n => exact failsByArgs_ok _ _
    | _ => exact failsByArgs_mismatch replace _ _

theorem failsByArgs_splitBy (cs : List Char) (separator : Option (List Char)) :
    split.FailsByArgs (splitBy cs separator) := by
  rcases separator with _ | _ | ⟨c, separator⟩
  · exact failsByArgs_ok _ _
  · exact failsByArgs_invalid _ _
  · exact failsByArgs_ok _ _

end FailsByArgs

/-! ### Answers -/

/-- What a method gives once its arguments are counted. -/
def answer (m : Method) (receiver : Value) (args : List Value) : Except Complaint Value :=
  match receiver with
  | .str s => m.callText s.toList args
  | .list xs => m.callList xs args
  | .dict entries => m.callDict entries args
  | v => .error (m.missing v)

theorem call_eq (m : Method) (receiver : Value) (args : List Value) :
    m.call receiver args =
      if m.arity.least ≤ args.length ∧ args.length ≤ m.arity.most then m.answer receiver args
      else .error (.argumentCount m.name m.arity args.length) := by
  show (if !m.arity.accepts args.length then _ else m.answer receiver args) = _
  by_cases hAccepts : m.arity.accepts args.length
  · rw [if_pos (Arity.accepts_iff.mp hAccepts), if_neg (by simpa using hAccepts)]
  · rw [if_neg (mt Arity.accepts_iff.mpr hAccepts), if_pos (by simpa using hAccepts)]

theorem failsByArgs_callText (hm : m ∈ ofText) (hArgs : m.arity.least ≤ args.length)
    (cs : List Char) : m.FailsByArgs (m.callText cs args) := by
  cases m with
  | upper | lower | capitalize | title | isdigit | isalpha => exact failsByArgs_ok _ _
  | strip | lstrip | rstrip => exact (failsByArgs_textArg? _ args).map _
  | startswith | endswith | find | count =>
    obtain ⟨t, rest, rfl⟩ := List.exists_cons_of_length_pos hArgs
    exact (failsByArgs_textArg _ t).map _
  | replace =>
    obtain ⟨old, _, rfl⟩ := List.exists_cons_of_length_pos (Nat.lt_of_succ_lt hArgs)
    obtain ⟨new, rest, rfl⟩ := List.exists_cons_of_length_pos (Nat.lt_of_succ_lt_succ hArgs)
    exact (failsByArgs_textArg _ old).bind fun _ => (failsByArgs_textArg _ new).bind fun _ =>
      failsByArgs_replaced _ _ _ _
  | split => exact (failsByArgs_textArg? _ args).bind fun _ => failsByArgs_splitBy _ _
  | join =>
    obtain ⟨v, rest, rfl⟩ := List.exists_cons_of_length_pos hArgs
    cases v with
    | list xs => exact (failsByArgs_mapM join xs).bind fun _ => failsByArgs_ok _ _
    | _ => exact failsByArgs_mismatch join _ _
  | index | get | keys | values | items => exact absurd hm (by decide)

theorem failsByArgs_callList (hm : m ∈ ofList) (hArgs : m.arity.least ≤ args.length)
    (xs : List Value) : m.FailsByArgs (m.callList xs args) := by
  simp only [ofList, List.mem_cons, List.not_mem_nil, or_false] at hm
  rcases hm with rfl | rfl
  · obtain ⟨v, rest, rfl⟩ := List.exists_cons_of_length_pos hArgs
    exact failsByArgs_ok _ _
  · obtain ⟨v, rest, rfl⟩ := List.exists_cons_of_length_pos hArgs
    simp only [callList]
    cases xs.findIdx? fun x => x.equals v with
    | some i => exact failsByArgs_ok _ _
    | none => exact failsByArgs_notInList _ v

theorem failsByArgs_callDict (hm : m ∈ ofDict) (hArgs : m.arity.least ≤ args.length)
    (entries : List (Value × Value)) : m.FailsByArgs (m.callDict entries args) := by
  simp only [ofDict, List.mem_cons, List.not_mem_nil, or_false] at hm
  rcases hm with rfl | rfl | rfl | rfl
  · obtain ⟨key, rest, rfl⟩ := List.exists_cons_of_length_pos hArgs
    exact failsByArgs_ok _ _
  all_goals exact failsByArgs_ok _ _

theorem callText_missing {cs : List Char} (h : m ∉ ofText ∨ args.length < m.arity.least) :
    m.callText cs args = .error (m.missing (.text cs)) := by
  cases m with
  | index | get | keys | values | items => rfl
  | startswith | endswith | find | count | join =>
    have hNone : args.length < 1 := h.resolve_left (by decide)
    obtain rfl := List.length_eq_zero_iff.mp (Nat.lt_one_iff.mp hNone)
    rfl
  | replace =>
    have hFew : args.length < 2 := h.resolve_left (by decide)
    match args, hFew with
    | [], _ | [_], _ => rfl
  | _ => exact absurd (h.resolve_left (by decide)) (Nat.not_lt_zero _)

theorem callList_missing {xs : List Value} (h : m ∉ ofList ∨ args.length < m.arity.least) :
    m.callList xs args = .error (m.missing (.list xs)) := by
  cases m with
  | count | index =>
    have hNone : args.length < 1 := h.resolve_left (by decide)
    obtain rfl := List.length_eq_zero_iff.mp (Nat.lt_one_iff.mp hNone)
    rfl
  | _ => rfl

theorem callDict_missing {entries : List (Value × Value)}
    (h : m ∉ ofDict ∨ args.length < m.arity.least) :
    m.callDict entries args = .error (m.missing (.dict entries)) := by
  cases m with
  | get =>
    have hNone : args.length < 1 := h.resolve_left (by decide)
    obtain rfl := List.length_eq_zero_iff.mp (Nat.lt_one_iff.mp hNone)
    rfl
  | keys | values | items => exact absurd (h.resolve_left (by decide)) (Nat.not_lt_zero _)
  | _ => rfl

/-- A method of a value has an answer to as many arguments as it needs. -/
theorem failsByArgs_answer (hm : m ∈ ofValue v) (hArgs : m.arity.least ≤ args.length) :
    m.FailsByArgs (m.answer v args) := by
  cases v with
  | str s => exact failsByArgs_callText hm hArgs s.toList
  | list xs => exact failsByArgs_callList hm hArgs xs
  | dict entries => exact failsByArgs_callDict hm hArgs entries
  | _ => cases hm

/-- A method has no answer for a value of another type, nor if an argument that it reads is not
there. -/
theorem answer_missing (h : m ∉ ofValue v ∨ args.length < m.arity.least) :
    m.answer v args = .error (m.missing v) := by
  cases v with
  | str s =>
    have hMissing : m.callText s.toList args = _ := callText_missing h
    rwa [Value.text, String.ofList_toList] at hMissing
  | list xs => exact callList_missing h
  | dict entries => exact callDict_missing h
  | _ => rfl

theorem answer_eq_missing_iff {w : Value} {attr : String} :
    m.answer v args = .error (.attributeNotFound w attr) ↔
      (m ∉ ofValue v ∨ args.length < m.arity.least) ∧ w = v ∧ attr = m.name := by
  by_cases h : m ∉ ofValue v ∨ args.length < m.arity.least
  · rw [answer_missing h, missing, Except.error.injEq, Complaint.attributeNotFound.injEq]
    simp only [h, true_and, eq_comm]
  · refine iff_of_false (fun hAnswer => ?_) (fun hMissing => h hMissing.1)
    rw [not_or, not_not, Nat.not_lt] at h
    have hMisfit : Misfit m (.attributeNotFound (w.typeName Host.none ()).1 attr) :=
      failsByArgs_answer h.1 h.2 _ hAnswer Host.none ()
    cases hMisfit

/-- A call lacks an attribute only if the method is bound to a value of another type. -/
theorem call_eq_missing_iff {w : Value} {attr : String} :
    m.call v args = .error (.attributeNotFound w attr) ↔
      (m.arity.least ≤ args.length ∧ args.length ≤ m.arity.most) ∧ m ∉ ofValue v ∧
        w = v ∧ attr = m.name := by
  rw [call_eq]
  split
  case isTrue hCount =>
    rw [answer_eq_missing_iff]
    simp only [hCount, Nat.not_lt.mpr hCount.1, or_false, and_self, true_and]
  case isFalse hCount => exact iff_of_false nofun fun h => hCount h.1

end Method

/-! ### Attributes -/

namespace Value

variable {σ : Type} {v : Value} {m : Method} {name : String}

/-- The name of the type of a value that is no object does not depend on the host. -/
theorem exists_typeName (host : Host σ) (h : ∀ o, v ≠ .object o) :
    ∃ type, v.typeName host = pure type := by
  cases v with
  | object o => exact absurd rfl (h o)
  | _ => exact ⟨_, rfl⟩

theorem getAttr_eq (host : Host σ) (h : ∀ o, v ≠ .object o) (name : String) :
    getAttr host v name =
      match (Method.resolve? v name).map (method v) with
      | some value => pure value
      | Option.none => Run.complain host (.attributeNotFound v name) := by
  cases v with
  | object o => exact absurd rfl (h o)
  | _ => rfl

/-- What `v.name(args)` gives. -/
def callMethod (host : Host σ) (v : Value) (name : String) (args : List Value) : Run σ Value := do
  call host (← getAttr host v name) args

theorem callMethod_eq (host : Host σ) (hm : m ∈ Method.ofValue v) (args : List Value) :
    callMethod host v m.name args = Run.ofExcept host (m.call v args) := by
  have hObject : ∀ o, v ≠ .object o := by
    rintro o rfl
    cases hm
  rw [callMethod, getAttr_eq host hObject, Method.resolve?_eq_some_iff.mpr ⟨hm, rfl⟩]
  rfl

/-- The method `m` of `v` is refused with too few or too many arguments, and otherwise it is
answered, unless the arguments do not fit. -/
structure Callable (host : Host σ) (v : Value) (m : Method) : Prop where
  refused : ∀ args, args.length < m.arity.least ∨ m.arity.most < args.length →
    call host (.method v m) args = throw (.argumentCount m.name m.arity args.length)
  answered : ∀ args, m.arity.least ≤ args.length → args.length ≤ m.arity.most →
    call host (.method v m) args = Run.ofExcept host (m.answer v args) ∧
      ∀ s e, (call host (.method v m) args s).1 = .error e → m.Misfit e

theorem callable_of_mem (host : Host σ) (hm : m ∈ Method.ofValue v) : Callable host v m where
  refused args hCount := by
    show Run.ofExcept host (m.call v args) = _
    rw [Method.call_eq, if_neg (by omega)]
    rfl
  answered args hLeast hMost := by
    have hCall : call host (.method v m) args = Run.ofExcept host (m.answer v args) := by
      show Run.ofExcept host (m.call v args) = _
      rw [Method.call_eq, if_pos ⟨hLeast, hMost⟩]
    have hArgs := Method.failsByArgs_answer hm hLeast
    refine ⟨hCall, fun s e hError => ?_⟩
    rw [hCall] at hError
    generalize m.answer v args = answer at hArgs hError
    cases answer with
    | ok w => cases hError
    | error c =>
      obtain rfl : (c.told host s).1 = e := Except.error.inj hError
      exact hArgs c rfl host s

/-- A name is looked up on a value that is no object of the host. If it is the name of one of the
methods of the value, that method is found, bound to the value, and it can be called; every other
name is missing. A call lacks an attribute exactly if the method was bound by hand to a value of
another type. An answer is lacking exactly there, and where an argument that is read is not there,
which the number of arguments rules out. -/
theorem getAttr_callable (host : Host σ) :
    (∀ v name, (∀ o, v ≠ .object o) →
      (∃ m ∈ Method.ofValue v, m.name = name ∧ getAttr host v name = pure (.method v m) ∧
        Callable host v m) ∨
      (∀ m ∈ Method.ofValue v, m.name ≠ name) ∧
        ∃ type, v.typeName host = pure type ∧
          getAttr host v name = throw (.attributeNotFound type name)) ∧
    (∀ (m : Method) (v : Value) (args : List Value) (w : Value) (attr : String),
      m.call v args = .error (.attributeNotFound w attr) ↔
        (m.arity.least ≤ args.length ∧ args.length ≤ m.arity.most) ∧ m ∉ Method.ofValue v ∧
          w = v ∧ attr = m.name) ∧
    ∀ (m : Method) (v : Value) (args : List Value) (w : Value) (attr : String),
      m.answer v args = .error (.attributeNotFound w attr) ↔
        (m ∉ Method.ofValue v ∨ args.length < m.arity.least) ∧ w = v ∧ attr = m.name := by
  refine ⟨fun v name hObject => ?_, fun _ _ _ _ _ => Method.call_eq_missing_iff,
    fun _ _ _ _ _ => Method.answer_eq_missing_iff⟩
  rw [getAttr_eq host hObject]
  cases hFound : Method.resolve? v name with
  | some m =>
    obtain ⟨hMem, hName⟩ := Method.resolve?_eq_some_iff.mp hFound
    exact .inl ⟨m, hMem, hName, rfl, callable_of_mem host hMem⟩
  | none =>
    obtain ⟨type, hType⟩ := exists_typeName host hObject
    refine .inr ⟨Method.resolve?_eq_none_iff.mp hFound, type, hType, ?_⟩
    show (do throw (← (do return RuntimeError.attributeNotFound (← v.typeName host) name)) :
      Run σ Value) = _
    rw [hType]
    rfl

/-- The name of a method that texts and lists have. -/
theorem getAttr_callable_count :
    (∀ o, Value.list [.none] ≠ .object o) ∧
      ∃ m ∈ Method.ofList, m.name = "count" ∧
        getAttr Host.none (.list [.none]) "count" = pure (.method (.list [.none]) m) ∧
        Callable Host.none (.list [.none]) m := by
  have hObject : ∀ o, Value.list [.none] ≠ .object o := nofun
  refine ⟨hObject, ?_⟩
  rcases (getAttr_callable Host.none).1 (.list [.none]) "count" hObject with hFound | ⟨hNone, -⟩
  · exact hFound
  · exact absurd rfl (hNone .count (by decide))

end Value

end Formula
