import Mathlib.Data.List.Basic

/-!
# JSON text

The text that `JSON.stringify` writes for a value without floating-point numbers, and the fact that
makes it usable as a key or a digest input: the text determines the value.

## Prefix decoding

Texts are concatenated, so injectivity is proved for a text followed by anything. Everything but a
number delimits itself; a number needs the next character not to be a digit, which is what
`NoDigit` says of the continuation and what every `,`, `]` and `}` satisfies.

Strings are Lean strings: sequences of Unicode scalar values. ECMAScript strings with lone
surrogates have no counterpart here.
-/

/-- What a JSON term is: a value, or the contents of an array or of an object. -/
inductive JsonKind
  | value
  | items
  | fields

/-- JSON values (`.value`), array contents (`.items`) and object contents (`.fields`). -/
inductive JsonTerm : JsonKind → Type
  | null : JsonTerm .value
  | bool (b : Bool) : JsonTerm .value
  | num (n : ℕ) : JsonTerm .value
  | str (s : String) : JsonTerm .value
  | arr (xs : JsonTerm .items) : JsonTerm .value
  | obj (fs : JsonTerm .fields) : JsonTerm .value
  | noItems : JsonTerm .items
  | item (x : JsonTerm .value) (xs : JsonTerm .items) : JsonTerm .items
  | noFields : JsonTerm .fields
  | field (k : String) (x : JsonTerm .value) (fs : JsonTerm .fields) : JsonTerm .fields

/-- A JSON value. -/
abbrev Json := JsonTerm .value

namespace Json

/-! ### Characters and strings -/

/-- A hexadecimal digit, in lower case. -/
def hexDigit (n : ℕ) : Char :=
  ['0', '1', '2', '3', '4', '5', '6', '7', '8', '9', 'a', 'b', 'c', 'd', 'e', 'f'].getD n '0'

/-- The escape of one character of a string. -/
@[grind =] def escapeChar (c : Char) : List Char :=
  if c = '"' then ['\\', '"']
  else if c = '\\' then ['\\', '\\']
  else if c = '\x08' then ['\\', 'b']
  else if c = '\x0c' then ['\\', 'f']
  else if c = '\n' then ['\\', 'n']
  else if c = '\r' then ['\\', 'r']
  else if c = '\t' then ['\\', 't']
  else if c.toNat < 32 then
    ['\\', 'u', '0', '0', hexDigit (c.toNat / 16), hexDigit (c.toNat % 16)]
  else [c]

/-- The escapes of a list of characters. -/
def escape (cs : List Char) : List Char := cs.flatMap escapeChar

/-- A string literal. -/
def renderString (s : String) : List Char := '"' :: (escape s.toList ++ ['"'])

/-- The comma before the remaining items or fields, when there are any. -/
@[grind =] def comma : {kind : JsonKind} → JsonTerm kind → List Char
  | _, .noItems => []
  | _, .noFields => []
  | _, _ => [',']

/-- The text of a term; items and fields are separated by commas and not bracketed. -/
@[grind =] def render : {kind : JsonKind} → JsonTerm kind → List Char
  | _, .null => ['n', 'u', 'l', 'l']
  | _, .bool true => ['t', 'r', 'u', 'e']
  | _, .bool false => ['f', 'a', 'l', 's', 'e']
  | _, .num n => Nat.toDigits 10 n
  | _, .str s => renderString s
  | _, .arr xs => '[' :: (render xs ++ [']'])
  | _, .obj fs => '{' :: (render fs ++ ['}'])
  | _, .noItems => []
  | _, .item x xs => render x ++ (comma xs ++ render xs)
  | _, .noFields => []
  | _, .field k x fs => renderString k ++ ':' :: (render x ++ (comma fs ++ render fs))

/-- `JSON.stringify`. -/
def stringify (v : Json) : String := String.ofList (render v)

/-! ### Strings decode -/

/-- The value of a hexadecimal digit. -/
def hexValue (c : Char) : ℕ :=
  if c.isDigit then c.toNat - 48 else c.toNat - 87

/-- Read one escaped character off the front of a text. -/
def unescapeChar : List Char → Option (Char × List Char)
  | '\\' :: 'b' :: r => some ('\x08', r)
  | '\\' :: 'f' :: r => some ('\x0c', r)
  | '\\' :: 'n' :: r => some ('\n', r)
  | '\\' :: 'r' :: r => some ('\r', r)
  | '\\' :: 't' :: r => some ('\t', r)
  | '\\' :: 'u' :: '0' :: '0' :: a :: b :: r => some (Char.ofNat (hexValue a * 16 + hexValue b), r)
  | '\\' :: c :: r => some (c, r)
  | c :: r => some (c, r)
  | [] => none

theorem hexValue_hexDigit : ∀ n < 16, hexValue (hexDigit n) = n := by decide

theorem unescapeChar_escapeChar (c : Char) (r : List Char) :
    unescapeChar (escapeChar c ++ r) = some (c, r) := by
  unfold escapeChar
  split_ifs with h₁ h₂ h₃ h₄ h₅ h₆ h₇ h₈
  · subst h₁; rfl
  · subst h₂; rfl
  · subst h₃; rfl
  · subst h₄; rfl
  · subst h₅; rfl
  · subst h₆; rfl
  · subst h₇; rfl
  · have hhi := hexValue_hexDigit (c.toNat / 16) (by omega)
    have hlo := hexValue_hexDigit (c.toNat % 16) (by omega)
    have hval : c.toNat / 16 * 16 + c.toNat % 16 = c.toNat := by omega
    simp only [List.cons_append, List.nil_append, unescapeChar, hhi, hlo, hval,
      Char.ofNat_toNat]
  · simp only [List.cons_append, List.nil_append]
    unfold unescapeChar
    split <;> simp_all

theorem escapeChar_append_inj {c d : Char} {r s : List Char}
    (h : escapeChar c ++ r = escapeChar d ++ s) : c = d ∧ r = s := by
  have hread := congrArg unescapeChar h
  rw [unescapeChar_escapeChar, unescapeChar_escapeChar, Option.some.injEq, Prod.mk.injEq] at hread
  exact hread

/-- An escaped character never starts with a closing quote. -/
theorem escapeChar_append_ne_quote (c : Char) (r s : List Char) :
    escapeChar c ++ r ≠ '"' :: s := by
  unfold escapeChar
  split_ifs with h₁ <;> simp
  exact fun h ↦ absurd h h₁

theorem escape_append_inj {cs ds r s : List Char}
    (h : escape cs ++ '"' :: r = escape ds ++ '"' :: s) : cs = ds ∧ r = s := by
  induction cs generalizing ds with
  | nil =>
    cases ds with
    | nil => simpa [escape] using h
    | cons d ds =>
      refine absurd h.symm ?_
      rw [escape, List.flatMap_cons, List.append_assoc]
      exact escapeChar_append_ne_quote d _ _
  | cons c cs ih =>
    cases ds with
    | nil =>
      refine absurd h ?_
      rw [escape, List.flatMap_cons, List.append_assoc]
      exact escapeChar_append_ne_quote c _ _
    | cons d ds =>
      rw [escape, escape, List.flatMap_cons, List.flatMap_cons, List.append_assoc,
        List.append_assoc] at h
      obtain ⟨rfl, hrest⟩ := escapeChar_append_inj h
      obtain ⟨rfl, rfl⟩ := ih hrest
      exact ⟨rfl, rfl⟩

theorem renderString_append_inj {a b : String} {r s : List Char}
    (h : renderString a ++ r = renderString b ++ s) : a = b ∧ r = s := by
  simp only [renderString, List.cons_append, List.append_assoc, List.nil_append,
    List.cons.injEq, true_and] at h
  obtain ⟨hab, hrs⟩ := escape_append_inj h
  exact ⟨String.toList_inj.mp hab, hrs⟩

/-! ### Numbers need a delimiter -/

/-- The text does not go on with a digit. -/
@[grind =] def NoDigit (r : List Char) : Prop := ∀ c ∈ r.head?, c.isDigit = false

theorem toDigits_append_inj {m n : ℕ} {r s : List Char} (hr : NoDigit r) (hs : NoDigit s)
    (h : Nat.toDigits 10 m ++ r = Nat.toDigits 10 n ++ s) : m = n ∧ r = s := by
  have hall : ∀ k, (Nat.toDigits 10 k).all Char.isDigit = true := fun k ↦
    List.all_eq_true.mpr fun c hc ↦ Nat.isDigit_of_mem_toDigits (by decide) (by decide) hc
  have hnone : ∀ t : List Char, NoDigit t → t.takeWhile Char.isDigit = [] := by
    intro t ht
    cases t with
    | nil => rfl
    | cons c t => simp [ht c rfl]
  have hspan : ∀ (k : ℕ) (t : List Char), NoDigit t →
      (Nat.toDigits 10 k ++ t).takeWhile Char.isDigit = Nat.toDigits 10 k := by
    intro k t ht
    rw [List.takeWhile_append_of_pos fun c hc ↦ List.all_eq_true.mp (hall k) c hc, hnone t ht,
      List.append_nil]
  have hdigits : Nat.toDigits 10 m = Nat.toDigits 10 n := by
    rw [← hspan m r hr, ← hspan n s hs, h]
  have hmn : m = n := by
    rw [← Nat.ofDigitChars_ten_toDigits (n := m), ← Nat.ofDigitChars_ten_toDigits (n := n),
      hdigits]
  subst hmn
  exact ⟨rfl, List.append_cancel_left h⟩

/-- A number starts with a digit, whatever follows it. -/
theorem isDigit_of_toDigits_append {n : ℕ} {c : Char} {r s : List Char}
    (h : Nat.toDigits 10 n ++ r = c :: s) : c.isDigit = true := by
  cases hd : Nat.toDigits 10 n with
  | nil => exact absurd hd Nat.toDigits_ne_nil
  | cons d ds =>
    rw [hd, List.cons_append, List.cons.injEq] at h
    refine Nat.isDigit_of_mem_toDigits (b := 10) (n := n) (by decide) (by decide) ?_
    rw [hd, ← h.1]
    exact List.mem_cons_self

/-! ### The text determines the value -/

/-- What may follow a term: no digit after a value, the closing bracket after a list. -/
def Ends : JsonKind → List Char → Prop
  | .value, r => NoDigit r
  | .items, r => ∃ t, r = ']' :: t
  | .fields, r => ∃ t, r = '}' :: t

theorem noDigit_items {xs : JsonTerm .items} {r : List Char} (hr : Ends .items r) :
    NoDigit (comma xs ++ (render xs ++ r)) := by
  obtain ⟨t, rfl⟩ := hr
  cases xs <;> simp [comma, render, NoDigit]

theorem noDigit_fields {fs : JsonTerm .fields} {r : List Char} (hr : Ends .fields r) :
    NoDigit (comma fs ++ (render fs ++ r)) := by
  obtain ⟨t, rfl⟩ := hr
  cases fs <;> simp [comma, render, NoDigit]

/-- What the first character of a value's text tells about the value. -/
@[grind =] def Leads (c : Char) : Json → Prop
  | .null => c = 'n'
  | .bool true => c = 't'
  | .bool false => c = 'f'
  | .num _ => c.isDigit = true
  | .str _ => c = '"'
  | .arr _ => c = '['
  | .obj _ => c = '{'

theorem leads_of_render {v : Json} {c : Char} {r t : List Char} (h : render v ++ r = c :: t) :
    Leads c v := by
  cases v with
  | num n => exact isDigit_of_toDigits_append h
  | bool b => cases b <;> exact (List.cons.inj h).1.symm
  | _ => exact (List.cons.inj h).1.symm

theorem not_leads_num {c : Char} {n : ℕ} (hc : c.isDigit = false) : ¬Leads c (.num n) := by
  intro hlead
  rw [Leads, hc] at hlead
  cases hlead

/-- A value's text is never taken for the end of a list. -/
theorem render_append_ne_close {v : Json} {c : Char} {r t : List Char}
    (hc : c = ']' ∨ c = '}') : render v ++ r ≠ c :: t := by
  intro h
  have hlead := leads_of_render h
  cases v with
  | bool b => cases b <;> rcases hc with rfl | rfl <;> simp [Leads] at hlead
  | num n => rcases hc with rfl | rfl <;> exact (not_leads_num (by decide) hlead).elim
  | _ => rcases hc with rfl | rfl <;> simp [Leads] at hlead

/-- What follows the first item decides whether there are more. -/
theorem after_comma_items {xs ys : JsonTerm .items} {r s : List Char} (hr : Ends .items r)
    (hs : Ends .items s) (ih : render xs ++ r = render ys ++ s → xs = ys ∧ r = s)
    (h : comma xs ++ (render xs ++ r) = comma ys ++ (render ys ++ s)) : xs = ys ∧ r = s := by
  obtain ⟨t, rfl⟩ := hr
  obtain ⟨u, rfl⟩ := hs
  cases xs with
  | noItems =>
    cases ys with
    | noItems => exact ih h
    | item y ys => simp [comma, render] at h
  | item x xs =>
    cases ys with
    | noItems => simp [comma, render] at h
    | item y ys => exact ih (List.cons.inj h).2

/-- What follows the first field decides whether there are more. -/
theorem after_comma_fields {fs gs : JsonTerm .fields} {r s : List Char} (hr : Ends .fields r)
    (hs : Ends .fields s) (ih : render fs ++ r = render gs ++ s → fs = gs ∧ r = s)
    (h : comma fs ++ (render fs ++ r) = comma gs ++ (render gs ++ s)) : fs = gs ∧ r = s := by
  obtain ⟨t, rfl⟩ := hr
  obtain ⟨u, rfl⟩ := hs
  cases fs with
  | noFields =>
    cases gs with
    | noFields => exact ih h
    | field k y gs => simp [comma, render] at h
  | field j x fs =>
    cases gs with
    | noFields => simp [comma, render] at h
    | field k y gs => exact ih (List.cons.inj h).2

/-- **The text determines the value**, and where it ends. -/
theorem render_append_inj {kind : JsonKind} (v w : JsonTerm kind) {r s : List Char}
    (hr : Ends kind r) (hs : Ends kind s) (h : render v ++ r = render w ++ s) :
    v = w ∧ r = s := by
  induction v generalizing r s with
  | null =>
    have hlead := leads_of_render h.symm
    cases w with
    | null => exact ⟨rfl, List.append_cancel_left h⟩
    | bool b => cases b <;> simp [Leads] at hlead
    | num n => exact (not_leads_num (by decide) hlead).elim
    | _ => simp [Leads] at hlead
  | bool b =>
    cases b with
    | true =>
      have hlead := leads_of_render h.symm
      cases w with
      | bool b =>
        cases b with
        | true => exact ⟨rfl, List.append_cancel_left h⟩
        | false => simp [Leads] at hlead
      | num n => exact (not_leads_num (by decide) hlead).elim
      | _ => simp [Leads] at hlead
    | false =>
      have hlead := leads_of_render h.symm
      cases w with
      | bool b =>
        cases b with
        | true => simp [Leads] at hlead
        | false => exact ⟨rfl, List.append_cancel_left h⟩
      | num n => exact (not_leads_num (by decide) hlead).elim
      | _ => simp [Leads] at hlead
  | num n =>
    cases w with
    | num m =>
      obtain ⟨rfl, rfl⟩ := toDigits_append_inj hr hs h
      exact ⟨rfl, rfl⟩
    | bool b => cases b <;> exact absurd (isDigit_of_toDigits_append h) (by decide)
    | _ => exact absurd (isDigit_of_toDigits_append h) (by decide)
  | str a =>
    have hlead := leads_of_render h.symm
    cases w with
    | str b =>
      obtain ⟨rfl, rfl⟩ := renderString_append_inj h
      exact ⟨rfl, rfl⟩
    | bool b => cases b <;> simp [Leads] at hlead
    | num n => exact (not_leads_num (by decide) hlead).elim
    | _ => simp [Leads] at hlead
  | arr xs ih =>
    have hlead := leads_of_render h.symm
    cases w with
    | arr ys =>
      simp only [render, List.cons_append, List.append_assoc, List.nil_append, List.cons.injEq,
        true_and] at h
      obtain ⟨rfl, hrs⟩ := ih ys ⟨r, rfl⟩ ⟨s, rfl⟩ h
      exact ⟨rfl, (List.cons.inj hrs).2⟩
    | bool b => cases b <;> simp [Leads] at hlead
    | num n => exact (not_leads_num (by decide) hlead).elim
    | _ => simp [Leads] at hlead
  | obj fs ih =>
    have hlead := leads_of_render h.symm
    cases w with
    | obj gs =>
      simp only [render, List.cons_append, List.append_assoc, List.nil_append, List.cons.injEq,
        true_and] at h
      obtain ⟨rfl, hrs⟩ := ih gs ⟨r, rfl⟩ ⟨s, rfl⟩ h
      exact ⟨rfl, (List.cons.inj hrs).2⟩
    | bool b => cases b <;> simp [Leads] at hlead
    | num n => exact (not_leads_num (by decide) hlead).elim
    | _ => simp [Leads] at hlead
  | noItems =>
    cases w with
    | noItems => exact ⟨rfl, h⟩
    | item y ys =>
      obtain ⟨t, rfl⟩ := hr
      rw [render, render, List.append_assoc] at h
      exact absurd h.symm (render_append_ne_close (.inl rfl))
  | item x xs ihx ihxs =>
    cases w with
    | noItems =>
      obtain ⟨t, rfl⟩ := hs
      rw [render, render, List.append_assoc] at h
      exact absurd h (render_append_ne_close (.inl rfl))
    | item y ys =>
      simp only [render, List.append_assoc] at h
      obtain ⟨rfl, hrest⟩ := ihx y (noDigit_items hr) (noDigit_items hs) h
      obtain ⟨rfl, rfl⟩ := after_comma_items hr hs (ihxs ys hr hs) hrest
      exact ⟨rfl, rfl⟩
  | noFields =>
    cases w with
    | noFields => exact ⟨rfl, h⟩
    | field k y gs =>
      obtain ⟨t, rfl⟩ := hr
      simp [render, renderString] at h
  | field k x fs ihx ihfs =>
    cases w with
    | noFields =>
      obtain ⟨t, rfl⟩ := hs
      simp [render, renderString] at h
    | field j y gs =>
      simp only [render, List.append_assoc, List.cons_append] at h
      obtain ⟨rfl, hvalue⟩ := renderString_append_inj h
      obtain ⟨rfl, hrest⟩ := ihx y (noDigit_fields hr) (noDigit_fields hs) (List.cons.inj hvalue).2
      obtain ⟨rfl, rfl⟩ := after_comma_fields hr hs (ihfs gs hr hs) hrest
      exact ⟨rfl, rfl⟩

/-! ### Objects with optional fields -/

/-- The fields of an object; a field without a value is left out. -/
def fields : List (String × Option Json) → JsonTerm .fields
  | [] => .noFields
  | (_, none) :: l => fields l
  | (k, some v) :: l => .field k v (fields l)

theorem fields_ne_of_not_mem {k : String} {v : Json} {fs : JsonTerm .fields}
    {l : List (String × Option Json)} (h : k ∉ l.map Prod.fst) : fields l ≠ .field k v fs := by
  induction l with
  | nil => simp [fields]
  | cons e l ih =>
    obtain ⟨j, o⟩ := e
    simp only [List.map_cons, List.mem_cons, not_or] at h
    cases o with
    | none => exact ih h.2
    | some w =>
      intro he
      injection he with hj
      exact h.1 hj.symm

/-- Objects over the same distinct keys are equal only when all their values are. -/
theorem fields_inj {l m : List (String × Option Json)} (hkeys : l.map Prod.fst = m.map Prod.fst)
    (hl : (l.map Prod.fst).Nodup) (h : fields l = fields m) : l = m := by
  induction l generalizing m with
  | nil => simpa using hkeys.symm
  | cons e l ih =>
    cases m with
    | nil => cases hkeys
    | cons e' m =>
      obtain ⟨k, o⟩ := e
      obtain ⟨k', o'⟩ := e'
      obtain ⟨rfl, htail⟩ := List.cons.inj hkeys
      obtain ⟨hnot, hnodup⟩ := List.nodup_cons.mp hl
      have hk : k ∉ l.map Prod.fst := hnot
      have hk' : k ∉ m.map Prod.fst := fun hmem ↦ hk (htail ▸ hmem)
      cases o with
      | none =>
        cases o' with
        | none => rw [ih htail hnodup h]
        | some w => exact absurd (show fields l = _ from h) (fields_ne_of_not_mem hk)
      | some v =>
        cases o' with
        | none => exact absurd (show fields m = _ from h.symm) (fields_ne_of_not_mem hk')
        | some w =>
          injection h with _ hv hrest
          rw [hv, ih htail hnodup hrest]

/-- `JSON.stringify` is injective. -/
theorem stringify_injective : Function.Injective stringify := by
  intro v w h
  have htext : render v ++ [] = render w ++ [] := by
    simpa using String.ofList_injective h
  exact (render_append_inj v w (r := []) (s := []) (by simp [Ends, NoDigit])
    (by simp [Ends, NoDigit]) htext).1

end Json
