import Mathlib.Data.List.Forall2
import Formula.Proofs.Decimal.Text
import Formula.Proofs.Text.Quoted
import Formula.Value.Written

/-! What values are written as tells the values apart, as long as they are data. A value ends where
its text ends, whatever the text around it: an atom ends at the first character that no atom has,
text ends at its quote, and a list or a dict at its bracket. No host is asked for any of it, so data
is written in the same way by every host. -/

namespace Formula.Value

/-- Values that hold no functions and no objects. -/
inductive IsData : Value → Prop
  | none : IsData .none
  | bool (b : Bool) : IsData (.bool b)
  | int (n : Int) : IsData (.int n)
  | float (x : Double) : IsData (.float x)
  | str (s : String) : IsData (.str s)
  | list {items : List Value} (h : ∀ v ∈ items, IsData v) : IsData (.list items)
  | dict {entries : List (Value × Value)} (hKeys : ∀ e ∈ entries, IsData e.1)
      (hValues : ∀ e ∈ entries, IsData e.2) : IsData (.dict entries)

/-- Identical data: the same types, the same items in the same order, and the same numbers to the
bit, except that whatever is no number is like whatever else is none. -/
inductive Alike : Value → Value → Prop
  | none : Alike .none .none
  | bool (b : Bool) : Alike (.bool b) (.bool b)
  | int (n : Int) : Alike (.int n) (.int n)
  | float (x : Double) : Alike (.float x) (.float x)
  | nan {x y : Double} (hx : x.isNaN) (hy : y.isNaN) : Alike (.float x) (.float y)
  | str (s : String) : Alike (.str s) (.str s)
  | list {xs ys : List Value} (h : List.Forall₂ Alike xs ys) : Alike (.list xs) (.list ys)
  | dict {xs ys : List (Value × Value)} (hKeys : List.Forall₂ (fun e e' => Alike e.1 e'.1) xs ys)
      (hValues : List.Forall₂ (fun e e' => Alike e.2 e'.2) xs ys) : Alike (.dict xs) (.dict ys)

/-! ### Text that asks no host -/

/-- What is written of a value by a host without objects. -/
def plain (v : Value) : List Char := (v.written Host.none ()).1

def plainItems (vs : List Value) : List Char := (writtenItems Host.none vs ()).1

def plainEntries (es : List (Value × Value)) : List Char := (writtenEntries Host.none es ()).1

/-! ### Forms -/

/-- The forms that data is written in, each with characters of its own to start with. -/
inductive Form where
  | atom | quoted | list | dict
deriving DecidableEq

/-- The form that data of the shape of `v` is written in. -/
def form : Value → Form
  | str _ => .quoted
  | list _ => .list
  | dict _ => .dict
  | _ => .atom

/-- The letters of the values that have names. -/
def letters : List Char := ['N', 'o', 'n', 'e', 'T', 'r', 'u', 'F', 'a', 'l', 's', 'i', 'f']

/-- Whether `c` is one of the characters that atoms are made of. -/
def isAtomic (c : Char) : Bool := Decimal.isNumeral c || letters.contains c

/-- The form that starts with `c`, if there is one. -/
def form? (c : Char) : Option Form :=
  if isAtomic c then some .atom
  else if c = '\'' ∨ c = '"' then some .quoted
  else if c = '[' then some .list
  else if c = '\x7b' then some .dict
  else Option.none

/-- No atom goes on with `cs`. -/
def Closes (cs : List Char) : Prop := ∀ c ∈ cs.head?, isAtomic c = false

variable {a b v : Value}

/-- The data that is written without quotes and brackets. -/
inductive IsAtom : Value → Prop
  | none : IsAtom .none
  | bool (b : Bool) : IsAtom (.bool b)
  | int (n : Int) : IsAtom (.int n)
  | float (x : Double) : IsAtom (.float x)

theorem IsData.isAtom (hData : IsData v) (hForm : v.form = .atom) : IsAtom v := by
  cases hData with
  | none | bool | int | float => constructor
  | str | list | dict => cases hForm

theorem IsAtom.isData (h : IsAtom v) : IsData v := by
  cases h <;> constructor

theorem IsAtom.form (h : IsAtom v) : v.form = .atom := by
  cases h <;> rfl

theorem IsAtom.isAtomic (h : IsAtom v) : ∀ c ∈ v.plain, isAtomic c := by
  cases h with
  | none => exact List.all_eq_true.mp rfl
  | bool b => cases b <;> exact List.all_eq_true.mp rfl
  | int n =>
    intro c hMem
    rcases Numeral.mem_toString hMem with hDigit | rfl
    · simp [Value.isAtomic, Decimal.isNumeral, hDigit]
    · rfl
  | float x =>
    have hLetters : ∀ c ∈ Double.nameLetters, Value.isAtomic c := List.all_eq_true.mp rfl
    intro c hMem
    rcases Double.mem_text hMem with hNumeral | hLetter
    · simp [Value.isAtomic, hNumeral]
    · exact hLetters c hLetter

theorem IsAtom.plain_ne_nil (h : IsAtom v) : v.plain ≠ [] := by
  cases h with
  | none => exact List.cons_ne_nil _ _
  | bool b => cases b <;> exact List.cons_ne_nil _ _
  | int n => exact Numeral.toString_ne_nil n
  | float x =>
    intro hNil
    have hText : x.text = [] := hNil
    simpa [hText] using x.text_mark

/-- Data starts with a character of its form. -/
theorem exists_form_head (hData : IsData v) :
    ∃ c rest, v.plain = c :: rest ∧ form? c = v.form := by
  have hAtom (h : IsAtom v) : ∃ c rest, v.plain = c :: rest ∧ form? c = v.form := by
    obtain ⟨c, rest, hText⟩ := List.exists_cons_of_ne_nil h.plain_ne_nil
    exact ⟨c, rest, hText, h.form ▸ if_pos (h.isAtomic c (hText ▸ List.mem_cons_self))⟩
  cases hData with
  | none | bool | int | float => exact hAtom (by constructor)
  | str s =>
    refine ⟨_, _, rfl, ?_⟩
    rcases Text.isQuote_quoteFor s.toList with h | h <;> rw [h] <;> rfl
  | list | dict => exact ⟨_, _, rfl, rfl⟩

theorem form_eq {r r' : List Char} (ha : IsData a) (hb : IsData b)
    (h : a.plain ++ r = b.plain ++ r') : a.form = b.form := by
  obtain ⟨c, rest, hText, hForm⟩ := exists_form_head ha
  obtain ⟨c', rest', hText', hForm'⟩ := exists_form_head hb
  rw [hText, hText'] at h
  obtain rfl := (List.cons.inj h).1
  exact Option.some.inj (hForm.symm.trans hForm')

/-! ### Atoms -/

/-- An atom ends where no atom goes on. -/
theorem append_inj_of_closes {xs ys r r' : List Char} (hxs : ∀ c ∈ xs, isAtomic c)
    (hys : ∀ c ∈ ys, isAtomic c) (hr : Closes r) (hr' : Closes r') (h : xs ++ r = ys ++ r') :
    xs = ys ∧ r = r' := by
  have hEnd : ∀ {cs : List Char}, Closes cs → cs.takeWhile isAtomic = [] := by
    rintro (_ | ⟨c, cs⟩) hCloses
    · rfl
    · rw [List.takeWhile_cons_of_neg]
      simp [hCloses c rfl]
  have hTake := congrArg (List.takeWhile isAtomic) h
  rw [List.takeWhile_append_of_pos hxs, List.takeWhile_append_of_pos hys, hEnd hr, hEnd hr',
    List.append_nil, List.append_nil] at hTake
  exact ⟨hTake, List.append_cancel_left (hTake ▸ h)⟩

/-- The kinds of atoms, told apart by the characters in them. -/
inductive Kind where
  | word | whole | real
deriving DecidableEq

/-- The letters that only words have. -/
def capitals : List Char := ['N', 'T', 'F']

/-- The characters that numbers of integer type do not have. -/
def marks : List Char := ['.', 'e', 'n']

def kind (cs : List Char) : Kind :=
  if cs.any capitals.contains then .word else if cs.any marks.contains then .real else .whole

theorem kind_none : kind none.plain = .word := rfl

theorem kind_bool (b : Bool) : kind (bool b).plain = .word := by
  cases b <;> rfl

theorem kind_int (n : Int) : kind (int n).plain = .whole := by
  have hNone (cs : List Char) (h : ∀ c ∈ cs, ¬(c.isDigit ∨ c = '-')) :
      ¬(int n).plain.any cs.contains := by
    simp only [List.any_eq_true, List.contains_iff_mem]
    rintro ⟨c, hMem, hc⟩
    exact h c hc (Numeral.mem_toString hMem)
  have hCapitals := hNone capitals (by simp [capitals])
  have hMarks := hNone marks (by simp [marks])
  rw [kind, if_neg hCapitals, if_neg hMarks]

theorem kind_float (x : Double) : kind (float x).plain = .real := by
  have hOther : ∀ c ∈ capitals, ¬(Decimal.isNumeral c ∨ c ∈ Double.nameLetters) := by
    simp [capitals, Decimal.isNumeral, Double.nameLetters]
  have hCapitals : ¬(float x).plain.any capitals.contains := by
    simp only [List.any_eq_true, List.contains_iff_mem]
    rintro ⟨c, hMem, hc⟩
    exact hOther c hc (Double.mem_text hMem)
  have hMarks : (float x).plain.any marks.contains := by
    simp only [List.any_eq_true, List.contains_iff_mem, marks]
    rcases x.text_mark with h | h | h <;> exact ⟨_, h, by decide⟩
  rw [kind, if_neg hCapitals, if_pos hMarks]

theorem IsAtom.alike (ha : IsAtom a) (hb : IsAtom b) (h : a.plain = b.plain) : Alike a b := by
  have hKind := congrArg kind h
  cases ha <;> cases hb
  case none.none => exact .none
  case bool.bool b b' =>
    cases b <;> cases b'
    case true.true | false.false => exact .bool _
    all_goals cases h
  case none.bool b | bool.none b => cases b <;> cases h
  case int.int m n =>
    obtain rfl := Numeral.toString_inj h
    exact .int m
  case float.float x y =>
    rcases Double.text_inj h with rfl | ⟨hx, hy⟩
    · exact .float x
    · exact .nan hx hy
  all_goals simp only [kind_none, kind_bool, kind_int, kind_float, reduceCtorEq] at hKind

/-! ### Lists and dicts -/

/-- The text of `x` tells `x`, up to `R`, from everything that `P` holds of, and it tells where it
ends itself. -/
def Told {α : Type} (text : α → List Char) (P : α → Prop) (R : α → α → Prop) (x : α) : Prop :=
  ∀ ⦃y r r'⦄, P y → Closes r → Closes r' → text x ++ r = text y ++ r' → R x y ∧ r = r'

/-- The texts of `xs` with commas between them. -/
def separated {α : Type} (text : α → List Char) : List α → List Char
  | [] => []
  | x :: xs => text x ++ xs.flatMap fun y => ',' :: ' ' :: text y

theorem plainItems_eq (vs : List Value) : plainItems vs = separated plain vs := by
  match vs with
  | [] => rfl
  | [v] => exact (List.append_nil v.plain).symm
  | v :: w :: vs =>
    show v.plain ++ [',', ' '] ++ plainItems (w :: vs) = _
    rw [plainItems_eq (w :: vs)]
    simp [separated]

/-- An entry of a dict as it is written. -/
def plainEntry (e : Value × Value) : List Char := e.1.plain ++ ':' :: ' ' :: e.2.plain

theorem plainEntries_eq (es : List (Value × Value)) :
    plainEntries es = separated plainEntry es := by
  match es with
  | [] => rfl
  | [(k, v)] =>
    show k.plain ++ [':', ' '] ++ v.plain = _
    simp [separated, plainEntry]
  | (k, v) :: e :: es =>
    show k.plain ++ [':', ' '] ++ v.plain ++ [',', ' '] ++ plainEntries (e :: es) = _
    rw [plainEntries_eq (e :: es)]
    simp [separated, plainEntry]

theorem plain_list (items : List Value) :
    (list items).plain = '[' :: separated plain items ++ [']'] :=
  plainItems_eq items ▸ rfl

theorem plain_dict (entries : List (Value × Value)) :
    (dict entries).plain = '\x7b' :: separated plainEntry entries ++ ['\x7d'] :=
  plainEntries_eq entries ▸ rfl

section Separated

variable {α : Type} {text : α → List Char} {P : α → Prop} {R : α → α → Prop} {close : Char}

theorem closes_tail (hClose : isAtomic close = false) (xs : List α) (r : List Char) :
    Closes (xs.flatMap (fun x => ',' :: ' ' :: text x) ++ close :: r) := by
  cases xs with
  | nil => simpa [Closes] using hClose
  | cons x xs =>
    intro c hc
    obtain rfl : ',' = c := by simpa using hc
    rfl

/-- After the first of them, the texts are told by the commas in front of them. -/
theorem tail_inj {xs ys : List α} {r r' : List Char} (hComma : close ≠ ',')
    (hClose : isAtomic close = false) (hxs : ∀ x ∈ xs, Told text P R x) (hys : ∀ y ∈ ys, P y)
    (h : xs.flatMap (fun x => ',' :: ' ' :: text x) ++ close :: r =
      ys.flatMap (fun y => ',' :: ' ' :: text y) ++ close :: r') :
    List.Forall₂ R xs ys ∧ r = r' := by
  induction xs generalizing ys with
  | nil =>
    cases ys with
    | nil => exact ⟨.nil, (List.cons.inj h).2⟩
    | cons y ys => exact absurd (List.cons.inj h).1 hComma
  | cons x xs ih =>
    cases ys with
    | nil => exact absurd (List.cons.inj h).1.symm hComma
    | cons y ys =>
      -- Whatever follows the two texts, no atom goes on with it, so they end at the same place.
      simp only [List.flatMap_cons, List.cons_append, List.append_assoc, List.cons.injEq,
        true_and] at h
      obtain ⟨hx, hTails⟩ := hxs x List.mem_cons_self (hys y List.mem_cons_self)
        (closes_tail hClose xs r) (closes_tail hClose ys r') h
      obtain ⟨hRest, hEnd⟩ := ih (fun z hz => hxs z (List.mem_cons_of_mem _ hz))
        (fun z hz => hys z (List.mem_cons_of_mem _ hz)) hTails
      exact ⟨.cons hx hRest, hEnd⟩

theorem separated_inj {xs ys : List α} {r r' : List Char} (hComma : close ≠ ',')
    (hClose : isAtomic close = false)
    (hOpens : ∀ x, P x → ∃ c rest, text x = c :: rest ∧ c ≠ close)
    (hxs : ∀ x ∈ xs, P x) (hys : ∀ y ∈ ys, P y) (hTold : ∀ x ∈ xs, Told text P R x)
    (h : separated text xs ++ close :: r = separated text ys ++ close :: r') :
    List.Forall₂ R xs ys ∧ r = r' := by
  cases xs with
  | nil =>
    cases ys with
    | nil => exact ⟨.nil, (List.cons.inj h).2⟩
    | cons y ys =>
      obtain ⟨c, rest, hText, hc⟩ := hOpens y (hys y List.mem_cons_self)
      rw [separated, separated, hText] at h
      exact absurd (List.cons.inj h).1.symm hc
  | cons x xs =>
    cases ys with
    | nil =>
      obtain ⟨c, rest, hText, hc⟩ := hOpens x (hxs x List.mem_cons_self)
      rw [separated, separated, hText] at h
      exact absurd (List.cons.inj h).1 hc
    | cons y ys =>
      refine tail_inj hComma hClose hTold hys ?_
      simpa [separated] using congrArg ([',', ' '] ++ ·) h

end Separated

/-- An entry is told by its key and by its value, since no atom goes on with a colon. -/
theorem told_entry {e : Value × Value} (hKey : Told plain IsData Alike e.1)
    (hValue : Told plain IsData Alike e.2) :
    Told plainEntry (fun e => IsData e.1 ∧ IsData e.2)
      (fun e e' => Alike e.1 e'.1 ∧ Alike e.2 e'.2) e := by
  intro e' r r' hData hr hr' h
  have hColon : ∀ cs, Closes (':' :: cs) := fun cs c hc => by
    obtain rfl : ':' = c := by simpa using hc
    rfl
  simp only [plainEntry, List.append_assoc, List.cons_append] at h
  obtain ⟨hKeys, hRest⟩ := hKey hData.1 (hColon _) (hColon _) h
  simp only [List.cons.injEq, true_and] at hRest
  obtain ⟨hValues, hEnd⟩ := hValue hData.2 hr hr' hRest
  exact ⟨⟨hKeys, hValues⟩, hEnd⟩

/-- Data starts with none of the characters that end a list or a dict. -/
theorem exists_head_ne {close : Char} (hClose : form? close = Option.none) (hData : IsData v) :
    ∃ c rest, v.plain = c :: rest ∧ c ≠ close := by
  obtain ⟨c, rest, hText, hForm⟩ := exists_form_head hData
  refine ⟨c, rest, hText, ?_⟩
  rintro rfl
  rw [hClose] at hForm
  cases hForm

theorem told_atom (ha : IsAtom a) : Told plain IsData Alike a := by
  intro b r r' hb hr hr' h
  have hForm := form_eq ha.isData hb h
  have hbAtom := hb.isAtom (hForm ▸ ha.form)
  obtain ⟨hText, hEnd⟩ := append_inj_of_closes ha.isAtomic hbAtom.isAtomic hr hr' h
  exact ⟨ha.alike hbAtom hText, hEnd⟩

theorem told_str (s : String) : Told plain IsData Alike (str s) := by
  intro b r r' hb hr hr' h
  have hForm := form_eq (.str s) hb h
  cases hb with
  | str t =>
    obtain ⟨hText, hEnd⟩ := Text.quoted_append_inj h
    obtain rfl := String.toList_inj.mp hText
    exact ⟨.str s, hEnd⟩
  | none | bool | int | float | list | dict => cases hForm

theorem told_list {xs : List Value} (hData : ∀ v ∈ xs, IsData v)
    (hTold : ∀ v ∈ xs, Told plain IsData Alike v) : Told plain IsData Alike (list xs) := by
  intro b r r' hb hr hr' h
  have hForm := form_eq (.list hData) hb h
  cases hb with
  | list hData' =>
    simp only [plain_list, List.cons_append, List.append_assoc, List.nil_append,
      List.cons.injEq, true_and] at h
    obtain ⟨hItems, hEnd⟩ := separated_inj (by decide) (by decide)
      (fun v hv => exists_head_ne rfl hv) hData hData' hTold h
    exact ⟨.list hItems, hEnd⟩
  | none | bool | int | float | str | dict => cases hForm

theorem told_dict {xs : List (Value × Value)} (hData : ∀ e ∈ xs, IsData e.1 ∧ IsData e.2)
    (hTold : ∀ e ∈ xs, Told plain IsData Alike e.1 ∧ Told plain IsData Alike e.2) :
    Told plain IsData Alike (dict xs) := by
  intro b r r' hb hr hr' h
  have hForm := form_eq (.dict (fun e he => (hData e he).1) fun e he => (hData e he).2) hb h
  cases hb with
  | dict hKeys hValues =>
    have hOpens (e : Value × Value) (he : IsData e.1 ∧ IsData e.2) :
        ∃ c rest, plainEntry e = c :: rest ∧ c ≠ '\x7d' := by
      obtain ⟨c, rest, hText, hc⟩ := exists_head_ne (show form? '\x7d' = Option.none from rfl) he.1
      exact ⟨c, _, by rw [plainEntry, hText, List.cons_append], hc⟩
    simp only [plain_dict, List.cons_append, List.append_assoc, List.nil_append,
      List.cons.injEq, true_and] at h
    obtain ⟨hEntries, hEnd⟩ := separated_inj (by decide) (by decide) hOpens hData
      (fun e he => ⟨hKeys e he, hValues e he⟩)
      (fun e he => told_entry (hTold e he).1 (hTold e he).2) h
    exact ⟨.dict (hEntries.imp fun _ _ h => h.1) (hEntries.imp fun _ _ h => h.2), hEnd⟩
  | none | bool | int | float | str | list => cases hForm

theorem told_of_isData (ha : IsData a) : Told plain IsData Alike a := by
  induction ha with
  | none => exact told_atom .none
  | bool b => exact told_atom (.bool b)
  | int n => exact told_atom (.int n)
  | float x => exact told_atom (.float x)
  | str s => exact told_str s
  | list hData ih => exact told_list hData ih
  | dict hKeys hValues ihKeys ihValues =>
    exact told_dict (fun e he => ⟨hKeys e he, hValues e he⟩)
      fun e he => ⟨ihKeys e he, ihValues e he⟩

/-! ### Hosts -/

section Hosts

variable {σ τ : Type} (host : Host σ)

theorem writtenItems_of_forall {items : List Value}
    (h : ∀ v ∈ items, v.written host = pure v.plain) :
    writtenItems host items = pure (plainItems items) := by
  match items with
  | [] => rfl
  | [v] => exact h v (List.mem_singleton_self v)
  | v :: w :: vs =>
    have hRest := writtenItems_of_forall fun u hu => h u (.tail v hu)
    show (do return (← v.written host) ++ [',', ' '] ++ (← writtenItems host (w :: vs))) = _
    rw [h v List.mem_cons_self, hRest]
    rfl

theorem writtenEntries_of_forall {entries : List (Value × Value)}
    (hKeys : ∀ e ∈ entries, e.1.written host = pure e.1.plain)
    (hValues : ∀ e ∈ entries, e.2.written host = pure e.2.plain) :
    writtenEntries host entries = pure (plainEntries entries) := by
  match entries with
  | [] => rfl
  | [(k, v)] =>
    show (do return (← k.written host) ++ [':', ' '] ++ (← v.written host)) = _
    rw [hKeys (k, v) (List.mem_singleton_self _), hValues (k, v) (List.mem_singleton_self _)]
    rfl
  | (k, v) :: e :: es =>
    have hRest := writtenEntries_of_forall (fun f hf => hKeys f (.tail _ hf))
      fun f hf => hValues f (.tail _ hf)
    show (do
      let key ← k.written host
      let value ← v.written host
      return key ++ [':', ' '] ++ value ++ [',', ' '] ++
        (← writtenEntries host (e :: es))) = _
    rw [hKeys (k, v) List.mem_cons_self, hValues (k, v) List.mem_cons_self, hRest]
    rfl

/-- No host is asked how data is written. -/
theorem IsData.written_eq (h : IsData v) : v.written host = pure v.plain := by
  induction h with
  | none | int | float | str => rfl
  | bool b => cases b <;> rfl
  | list _ ih =>
    show (do return '[' :: (← writtenItems host _) ++ [']']) = _
    rw [writtenItems_of_forall host ih]
    rfl
  | dict _ _ ihKeys ihValues =>
    show (do return '\x7b' :: (← writtenEntries host _) ++ ['\x7d']) = _
    rw [writtenEntries_of_forall host ihKeys ihValues]
    rfl

theorem IsData.repr_eq (h : IsData v) : v.repr host = pure (String.ofList v.plain) := by
  rw [repr, h.written_eq host]
  rfl

/-- Data that is written the same is the same, whatever hosts are there to be asked. -/
theorem alike_of_repr_eq (host' : Host τ) (s : σ) (t : τ) (ha : IsData a) (hb : IsData b)
    (h : (a.repr host s).1 = (b.repr host' t).1) : Alike a b := by
  have hClosed : Closes [] := fun c hc => by cases hc
  rw [ha.repr_eq host, hb.repr_eq host'] at h
  have hText : a.plain ++ [] = b.plain ++ [] := congrArg (· ++ []) (String.ofList_inj.mp h)
  exact (told_of_isData ha hb hClosed hClosed hText).1

end Hosts

/-- What is no number is written without its sign. -/
theorem alike_of_repr_eq_nans :
    Alike (dict [(str "it's", list [float Double.nan, bool true]), (int (-1), dict [])])
      (dict [(str "it's", list [float Double.nan.neg, bool true]), (int (-1), dict [])]) := by
  have hData (x : Double) :
      IsData (dict [(str "it's", list [float x, bool true]), (int (-1), dict [])]) := by
    have hItems : IsData (list [float x, bool true]) :=
      .list (by simp [IsData.float, IsData.bool])
    exact .dict (by simp [IsData.str, IsData.int]) (by simp [hItems, IsData.dict])
  exact alike_of_repr_eq Host.none Host.none () () (hData _) (hData _) (by decide +kernel)

end Formula.Value
