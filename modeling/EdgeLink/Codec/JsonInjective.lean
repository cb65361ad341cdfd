import EdgeLink.Codec.JsText
import EdgeLink.Foundations.PrefixCode
import Mathlib.Logic.Function.Defs

/-!
# A JSON text denotes one tree

What `JSON.stringify` writes can be read from the front, so that two values with the same text are
written as the same tree. Numbers may be printed in any way that tells them apart and uses the
letters of a JSON number.

* `jsonText_inj`: trees with the same text are the same.
-/

namespace EdgeLink

/-- The letters of a JSON number. -/
def isNumberChar (c : Char) : Bool := c.isDigit || c = '+' || c = '-' || c = '.' || c = 'e'

/-- How finite numbers are printed: differently, and with the letters of a number. -/
structure NumberTexts (numberToString : ℚ → String) : Prop where
  injective : Function.Injective numberToString
  nonempty : ∀ q, numberToString q ≠ ""
  numeric : ∀ q, ∀ c ∈ (numberToString q).toList, isNumberChar c

/-! ## Strings -/

/-- The characters that a JSON string escapes. -/
def escapedChars : List Char := '"' :: '\\' :: (List.range 32).map Char.ofNat

theorem jsonChar_of_notMem {c : Char} (h : c ∉ escapedChars) :
    (jsonChar c).toList = [c] ∧ c ≠ '"' ∧ c ≠ '\\' := by
  simp only [escapedChars, List.mem_cons, List.mem_map, List.mem_range, not_or, not_exists,
    not_and] at h
  obtain ⟨hquote, hslash, hcontrol⟩ := h
  have hprint : ¬ c.toNat < 32 := fun hlt => hcontrol c.toNat hlt (Char.ofNat_toNat c)
  refine ⟨?_, hquote, hslash⟩
  rw [jsonChar, if_neg hquote, if_neg hslash, if_neg (by omega), if_neg (by omega),
    if_neg (by omega), if_neg (by omega), if_neg (by omega), if_neg hprint, String.toList_ofList]

theorem jsonChar_of_mem {c : Char} (h : c ∈ escapedChars) :
    (jsonChar c).toList.head? = some '\\' ∧
      ∀ d ∈ escapedChars, (jsonChar c).toList <+: (jsonChar d).toList → c = d := by
  have hall : escapedChars.all fun c => (jsonChar c).toList.head? = some '\\' ∧
      escapedChars.all fun d => (jsonChar c).toList <+: (jsonChar d).toList → c = d := by
    decide +kernel
  obtain ⟨hhead, hinj⟩ := of_decide_eq_true (List.all_eq_true.1 hall c h)
  exact ⟨hhead, fun d hd => of_decide_eq_true (List.all_eq_true.1 hinj d hd)⟩

theorem separates_jsonChar (c d : Char) :
    Separates (fun _ => True) (fun c => (jsonChar c).toList) c d := by
  intro t t' _ _ h
  dsimp only at h
  suffices hcd : c = d by
    subst hcd
    exact ⟨rfl, List.append_cancel_left h⟩
  have hheads := congrArg List.head? h
  by_cases hc : c ∈ escapedChars
  · obtain ⟨hhead, hprefix⟩ := jsonChar_of_mem hc
    by_cases hd : d ∈ escapedChars
    · rcases List.append_eq_append_iff.1 h with ⟨s, hs, -⟩ | ⟨s, hs, -⟩
      · exact hprefix d hd ⟨s, hs.symm⟩
      · exact ((jsonChar_of_mem hd).2 c hc ⟨s, hs.symm⟩).symm
    · obtain ⟨hplain, -, hslash⟩ := jsonChar_of_notMem hd
      rw [hplain, List.head?_append, hhead] at hheads
      exact absurd (Option.some.inj hheads).symm hslash
  · obtain ⟨hplain, -, hslash⟩ := jsonChar_of_notMem hc
    by_cases hd : d ∈ escapedChars
    · rw [hplain, List.head?_append (l := (jsonChar d).toList), (jsonChar_of_mem hd).1] at hheads
      exact absurd (Option.some.inj hheads) hslash
    · rw [hplain, (jsonChar_of_notMem hd).1] at hheads
      exact Option.some.inj hheads

theorem head_jsonChar (c : Char) (t : List Char) :
    ((jsonChar c).toList ++ t).head? ≠ some '"' := by
  by_cases hc : c ∈ escapedChars
  · rw [List.head?_append, (jsonChar_of_mem hc).1]
    simp
  · obtain ⟨hplain, hquote, -⟩ := jsonChar_of_notMem hc
    rw [hplain]
    exact fun h => hquote (Option.some.inj h)

theorem toList_jsonString (s : String) : (jsonString s).toList =
    '"' :: (s.toList.flatMap (fun c => (jsonChar c).toList) ++ ['"']) := by
  simp [jsonString, List.flatMap_map]

theorem separates_jsonString (s s' : String) :
    Separates (fun _ => True) (fun s => (jsonString s).toList) s s' := by
  intro t t' _ _ h
  dsimp only at h
  rw [toList_jsonString, toList_jsonString, List.cons_append, List.cons_append, List.append_assoc,
    List.append_assoc] at h
  obtain ⟨hs, ht⟩ := Separates.flatMap (E := fun t => t.head? = some '"')
    (fun c _ d _ => separates_jsonChar c d) (fun c _ t => ⟨trivial, head_jsonChar c t⟩)
    (fun _ _ => trivial) _ _ rfl rfl (List.tail_eq_of_cons_eq h)
  exact ⟨String.toList_inj.1 hs, List.tail_eq_of_cons_eq ht⟩

/-! ## Trees -/

namespace JsValue

variable {numberToString : ℚ → String}

mutual

/-- A tree that JSON can write. -/
def Written : JsValue → Prop
  | undefined => False
  | num (.finite _) => True
  | num _ => False
  | arr items => WrittenItems items
  | obj fields => WrittenFields fields
  | _ => True

def WrittenItems : List JsValue → Prop
  | [] => True
  | v :: rest => v.Written ∧ WrittenItems rest

def WrittenFields : List (String × JsValue) → Prop
  | [] => True
  | (_, v) :: rest => v.Written ∧ WrittenFields rest

end

mutual

theorem written_stringify : ∀ v : JsValue, (stringify v).Written
  | undefined => trivial
  | null => trivial
  | bool _ => trivial
  | num (.finite _) => trivial
  | num .nan => trivial
  | num .posInf => trivial
  | num .negInf => trivial
  | str _ => trivial
  | arr items => writtenItems_stringify items
  | obj fields => writtenFields_stringify fields

theorem writtenItems_stringify : ∀ items, WrittenItems (stringifyItems items)
  | [] => trivial
  | v :: rest => ⟨written_stringify v, writtenItems_stringify rest⟩

theorem writtenFields_stringify : ∀ fields, WrittenFields (stringifyFields fields)
  | [] => trivial
  | (k, v) :: rest => by
    cases v with
    | undefined => exact writtenFields_stringify rest
    | _ => exact ⟨written_stringify _, writtenFields_stringify rest⟩

end

/-- The kinds of trees, told apart by the first letter of their texts. -/
inductive Kind where
  | null | true | false | num | str | arr | obj
  deriving DecidableEq

def kind : JsValue → Kind
  | bool true => .true
  | bool false => .false
  | num _ => .num
  | str _ => .str
  | arr _ => .arr
  | obj _ => .obj
  | _ => .null

def kindOfChar (c : Char) : Option Kind :=
  if c = 'n' then some .null
  else if c = 't' then some .true
  else if c = 'f' then some .false
  else if c = '"' then some .str
  else if c = '[' then some .arr
  else if c = '\x7b' then some .obj
  else if isNumberChar c then some .num
  else none

theorem kindOfChar_of_isNumberChar {c : Char} (h : isNumberChar c) : kindOfChar c = some .num := by
  unfold kindOfChar
  split_ifs <;> subst_vars <;> first | rfl | (revert h; decide)

/-- A text begins with a letter of its kind, and with no other sign. -/
theorem head_jsonText (hnum : NumberTexts numberToString) {v : JsValue} (hv : v.Written)
    (t : List Char) : ∃ c, ((v.jsonText numberToString).toList ++ t).head? = some c ∧
      kindOfChar c = some v.kind := by
  cases v with
  | undefined => exact hv.elim
  | null => exact ⟨'n', by simp [jsonText], rfl⟩
  | bool b => cases b <;> exact ⟨_, by simp [jsonText]; rfl, rfl⟩
  | num n =>
    cases n with
    | finite q =>
      obtain ⟨c, l, hl⟩ := List.exists_cons_of_ne_nil
        (mt String.toList_eq_nil_iff.1 (hnum.nonempty q))
      refine ⟨c, by simp [jsonText, numberText, hl], ?_⟩
      exact kindOfChar_of_isNumberChar (hnum.numeric q c (hl ▸ List.mem_cons_self))
    | _ => exact hv.elim
  | str s => exact ⟨'"', by simp [jsonText, toList_jsonString], rfl⟩
  | arr items => exact ⟨'[', by simp [jsonText], rfl⟩
  | obj fields => exact ⟨'\x7b', by simp [jsonText], rfl⟩

theorem writtenItems_iff {items : List JsValue} :
    WrittenItems items ↔ ∀ v ∈ items, v.Written := by
  induction items with
  | nil => simp [WrittenItems]
  | cons v items ih => simp [WrittenItems, ih]

theorem writtenFields_iff {fields : List (String × JsValue)} :
    WrittenFields fields ↔ ∀ e ∈ fields, e.2.Written := by
  induction fields with
  | nil => simp [WrittenFields]
  | cons e fields ih => simp [WrittenFields, ih]

theorem jsonTextItems_eq (items : List JsValue) :
    jsonTextItems numberToString items = items.map (jsonText numberToString) := by
  induction items with
  | nil => rfl
  | cons v items ih => rw [jsonTextItems, ih, List.map_cons]

theorem jsonTextFields_eq (fields : List (String × JsValue)) :
    jsonTextFields numberToString fields =
      fields.map fun e => jsonString e.1 ++ ":" ++ e.2.jsonText numberToString := by
  induction fields with
  | nil => rfl
  | cons e fields ih => rw [jsonTextFields, ih, List.map_cons]

/-- No letter of a number comes next. -/
def Stops (t : List Char) : Prop := ∀ c ∈ t.head?, isNumberChar c = false

theorem stops_of_head {t : List Char} {close : Char} (hclose : isNumberChar close = false)
    (h : t.head? = some ',' ∨ t.head? = some close) : Stops t := by
  intro c hc
  rcases h with h | h
  · obtain rfl := Option.some.inj (h.symm.trans hc)
    rfl
  · obtain rfl := Option.some.inj (h.symm.trans hc)
    exact hclose

/-- The text of a tree separates it from every other one. -/
def SeparatesText (numberToString : ℚ → String) (v : JsValue) : Prop :=
  ∀ w : JsValue, v.Written → w.Written →
    Separates Stops (fun v => (v.jsonText numberToString).toList) v w

theorem kind_eq_of_jsonText (hnum : NumberTexts numberToString) {v w : JsValue} (hv : v.Written)
    (hw : w.Written) {t t' : List Char}
    (h : (v.jsonText numberToString).toList ++ t = (w.jsonText numberToString).toList ++ t') :
    v.kind = w.kind := by
  obtain ⟨c, hc, hkind⟩ := head_jsonText hnum hv t
  obtain ⟨c', hc', hkind'⟩ := head_jsonText hnum hw t'
  rw [h, hc'] at hc
  rw [← Option.some_inj, ← hkind, ← hkind', Option.some.inj hc]

theorem separatesText_num (hnum : NumberTexts numberToString) (n : JsNumber) :
    SeparatesText numberToString (num n) := by
  intro w hv hw t t' ht ht' h
  have hkind := kind_eq_of_jsonText hnum hv hw h
  cases n with
  | finite q =>
    cases w with
    | num m =>
      cases m with
      | finite q' =>
        obtain ⟨hq, ht⟩ := append_inj_of_stop (hnum.numeric q) (hnum.numeric q') ht ht' h
        rw [hnum.injective (String.toList_inj.1 hq)]
        exact ⟨rfl, ht⟩
      | _ => exact hw.elim
    | bool b => cases b <;> nomatch hkind
    | _ => nomatch hkind
  | _ => exact hv.elim

theorem separatesText_str (hnum : NumberTexts numberToString) (s : String) :
    SeparatesText numberToString (str s) := by
  intro w hv hw t t' _ _ h
  have hkind := kind_eq_of_jsonText hnum hv hw h
  cases w with
  | str s' =>
    obtain ⟨rfl, ht⟩ := separates_jsonString s s' t t' trivial trivial h
    exact ⟨rfl, ht⟩
  | bool b => cases b <;> nomatch hkind
  | _ => nomatch hkind

theorem separatesText_arr (hnum : NumberTexts numberToString) {items : List JsValue}
    (hitems : ∀ v ∈ items, SeparatesText numberToString v) :
    SeparatesText numberToString (arr items) := by
  intro w hv hw t t' _ _ h
  have hkind := kind_eq_of_jsonText hnum hv hw h
  cases w with
  | arr items' =>
    have hwritten := writtenItems_iff.1 hv
    have hwritten' := writtenItems_iff.1 hw
    simp only [jsonText, jsonTextItems_eq, String.toList_append, String.toList_intercalate,
      List.map_map, List.append_assoc] at h
    obtain ⟨rfl, ht⟩ := Separates.intercalate ',' ']' (by decide)
      (fun a ha b hb t t' ht ht' => hitems a ha b (hwritten a ha) (hwritten' b hb) t t'
        (stops_of_head rfl ht) (stops_of_head rfl ht'))
      (fun a ha t hhead => by
        obtain ⟨c, hc, hkind⟩ := head_jsonText hnum (ha.elim (hwritten a) (hwritten' a)) t
        obtain rfl := Option.some.inj (hhead.symm.trans hc)
        nomatch hkind) (']' :: t) (']' :: t') rfl rfl (List.tail_eq_of_cons_eq h)
    exact ⟨rfl, List.tail_eq_of_cons_eq ht⟩
  | bool b => cases b <;> nomatch hkind
  | _ => nomatch hkind

theorem separatesText_obj (hnum : NumberTexts numberToString) {fields : List (String × JsValue)}
    (hfields : ∀ e ∈ fields, SeparatesText numberToString e.2) :
    SeparatesText numberToString (obj fields) := by
  intro w hv hw t t' _ _ h
  have hkind := kind_eq_of_jsonText hnum hv hw h
  cases w with
  | obj fields' =>
    have hwritten := writtenFields_iff.1 hv
    have hwritten' := writtenFields_iff.1 hw
    simp only [jsonText, jsonTextFields_eq, String.toList_append, String.toList_intercalate,
      List.map_map, List.append_assoc] at h
    obtain ⟨rfl, ht⟩ := Separates.intercalate ',' '\x7d' (by decide)
      (fun a ha b hb t t' ht ht' heq => by
        simp only [Function.comp_apply, String.toList_append, List.append_assoc] at heq
        obtain ⟨hkey, hrest⟩ := separates_jsonString a.1 b.1 _ _ trivial trivial heq
        obtain ⟨hval, rfl⟩ := hfields a ha b.2 (hwritten a ha) (hwritten' b hb) t t'
          (stops_of_head rfl ht) (stops_of_head rfl ht') (List.append_cancel_left hrest)
        exact ⟨Prod.ext hkey hval, rfl⟩)
      (fun a _ t hhead => by simp [toList_jsonString] at hhead)
      ('\x7d' :: t) ('\x7d' :: t') rfl rfl (List.tail_eq_of_cons_eq h)
    exact ⟨rfl, List.tail_eq_of_cons_eq ht⟩
  | bool b => cases b <;> nomatch hkind
  | _ => nomatch hkind

mutual

theorem separatesText (hnum : NumberTexts numberToString) :
    ∀ v : JsValue, SeparatesText numberToString v
  | undefined => fun _ hv => hv.elim
  | null => fun w hv hw t t' _ _ h => by
    have hkind := kind_eq_of_jsonText hnum hv hw h
    cases w with
    | null => exact ⟨rfl, List.append_cancel_left h⟩
    | undefined => exact hw.elim
    | bool b => cases b <;> nomatch hkind
    | _ => nomatch hkind
  | bool b => fun w hv hw t t' _ _ h => by
    have hkind := kind_eq_of_jsonText hnum hv hw h
    cases w with
    | bool b' =>
      obtain rfl : b = b' := by cases b <;> cases b' <;> first | rfl | nomatch hkind
      exact ⟨rfl, List.append_cancel_left h⟩
    | _ => cases b <;> nomatch hkind
  | num n => separatesText_num hnum n
  | str s => separatesText_str hnum s
  | arr items => separatesText_arr hnum (separatesText_items hnum items)
  | obj fields => separatesText_obj hnum (separatesText_fields hnum fields)

theorem separatesText_items (hnum : NumberTexts numberToString) :
    ∀ items : List JsValue, ∀ v ∈ items, SeparatesText numberToString v
  | [] => fun _ hv => nomatch hv
  | v :: rest => List.forall_mem_cons.2 ⟨separatesText hnum v, separatesText_items hnum rest⟩

theorem separatesText_fields (hnum : NumberTexts numberToString) :
    ∀ fields : List (String × JsValue), ∀ e ∈ fields, SeparatesText numberToString e.2
  | [] => fun _ he => nomatch he
  | (_, v) :: rest => List.forall_mem_cons.2 ⟨separatesText hnum v, separatesText_fields hnum rest⟩

end

/-- **A JSON text denotes one tree.** -/
theorem jsonText_inj (hnum : NumberTexts numberToString) {v w : JsValue} (hv : v.Written)
    (hw : w.Written) (h : v.jsonText numberToString = w.jsonText numberToString) : v = w :=
  (separatesText hnum v w hv hw [] [] (fun _ hc => nomatch hc) (fun _ hc => nomatch hc)
    (by simp only [h])).1

end JsValue

end EdgeLink
