/-
Module: Nwmng.Lib.Json
Purpose: JSON trees as a C library holds them: lookup and replacement of members,
and the text of a value.
Trusted boundary: the text is that of the spaced style of json-c
Main exports:
  Value, Value.get, Value.set, Value.text, get_set_self, get_set_other,
  quoted_infix_render
-/
import Mathlib.Data.List.Basic
import Mathlib.Data.List.Nodup

namespace Json

/-- A tree.  The members of an object have an order, and each key occurs once in a
tree that was parsed or built by `set`.  A string stands for the C string that the library
hands out for it: the characters up to the first NUL, because a text is read as such wherever
it is used. -/
inductive Value where
  | null
  | boolean (value : Bool)
  | int (value : Int)
  /-- a number that is no integer, as it was written -/
  | double (text : List Char)
  | string (text : List Char)
  | array (items : List Value)
  | object (members : List (String × Value))
deriving Repr, Inhabited

namespace Value

/-! ## Members -/

/-- The value of the first member with a key. -/
def lookup (key : String) : List (String × Value) → Option Value
  | [] => none
  | (other, value) :: rest => if other = key then some value else lookup key rest

/-- The value of a member; `none` also for a value that is no object. -/
def get (tree : Value) (key : String) : Option Value :=
  match tree with
  | .object members => lookup key members
  | _ => none

/-- Replace the value of a member where it stands, or append the member. -/
def replace (key : String) (value : Value) : List (String × Value) → List (String × Value)
  | [] => [(key, value)]
  | (other, old) :: rest =>
      if other = key then (key, value) :: rest else (other, old) :: replace key value rest

/-- Set a member of an object; other values stay as they are. -/
def set (tree : Value) (key : String) (value : Value) : Value :=
  match tree with
  | .object members => .object (replace key value members)
  | other => other

theorem lookup_replace_self (key : String) (value : Value)
    (members : List (String × Value)) : lookup key (replace key value members) = some value := by
  induction members with
  | nil => simp [replace, lookup]
  | cons first rest hypothesis =>
      obtain ⟨other, old⟩ := first
      by_cases same : other = key
      · simp [replace, lookup, same]
      · simp [replace, lookup, same, hypothesis]

theorem lookup_replace_other {key other : String} (different : other ≠ key) (value : Value)
    (members : List (String × Value)) :
    lookup other (replace key value members) = lookup other members := by
  induction members with
  | nil => simp [replace, lookup, different.symm]
  | cons first rest hypothesis =>
      obtain ⟨third, old⟩ := first
      by_cases same : third = key
      · subst same
        simp [replace, lookup, different.symm]
      · simp [replace, lookup, same, hypothesis]

/-- No two members of an object have the same key. -/
def DistinctKeys : Value → Prop
  | .object members => (members.map Prod.fst).Nodup
  | _ => True

instance : (tree : Value) → Decidable tree.DistinctKeys
  | .object members => inferInstanceAs (Decidable (members.map Prod.fst).Nodup)
  | .null => isTrue trivial
  | .boolean _ => isTrue trivial
  | .int _ => isTrue trivial
  | .double _ => isTrue trivial
  | .string _ => isTrue trivial
  | .array _ => isTrue trivial

theorem lookup_eq_none {key : String} {members : List (String × Value)}
    (absent : key ∉ members.map Prod.fst) : lookup key members = none := by
  induction members with
  | nil => rfl
  | cons first rest hypothesis =>
      obtain ⟨other, value⟩ := first
      simp only [List.map_cons, List.mem_cons, not_or] at absent
      rw [lookup, if_neg fun same => absent.1 same.symm]
      exact hypothesis absent.2

/-- The value is an object. -/
def isObject : Value → Bool
  | .object _ => true
  | _ => false

theorem isObject_of_get {tree value : Value} {key : String}
    (found : tree.get key = some value) : tree.isObject = true := by
  cases tree with
  | object members => rfl
  | _ => cases found

theorem get_set_self {tree : Value} (isObject : tree.isObject = true) (key : String)
    (value : Value) : (tree.set key value).get key = some value := by
  cases tree with
  | object members => exact lookup_replace_self key value members
  | _ => cases isObject

theorem get_set_other {key other : String} (different : other ≠ key) (tree value : Value) :
    (tree.set key value).get other = tree.get other := by
  cases tree with
  | object members => exact lookup_replace_other different value members
  | _ => rfl

/-- The keys after a replacement: those of before, or one more at the end. -/
theorem keys_replace (key : String) (value : Value) (members : List (String × Value)) :
    (replace key value members).map Prod.fst =
      if key ∈ members.map Prod.fst then members.map Prod.fst
      else members.map Prod.fst ++ [key] := by
  induction members with
  | nil => rfl
  | cons first rest hypothesis =>
      obtain ⟨other, old⟩ := first
      by_cases same : other = key
      · simp [replace, same]
      · have apart : key ≠ other := fun equal => same equal.symm
        simp only [replace, if_neg same, List.map_cons, hypothesis, List.mem_cons, apart,
          false_or]
        split
        · rfl
        · rfl

theorem distinctKeys_set {tree : Value} (distinct : tree.DistinctKeys) (key : String)
    (value : Value) : (tree.set key value).DistinctKeys := by
  cases tree with
  | object members =>
      have before : (members.map Prod.fst).Nodup := distinct
      show ((replace key value members).map Prod.fst).Nodup
      rw [keys_replace]
      split
      · exact before
      · rename_i absent
        rw [← List.concat_eq_append]
        exact (List.nodup_concat _ _).mpr ⟨absent, before⟩
  | _ => trivial

@[simp] theorem isObject_set (tree : Value) (key : String) (value : Value) :
    (tree.set key value).isObject = tree.isObject := by
  cases tree <;> rfl

/-!
## Text

The text of a tree is that of the library, without blanks.  It is needed where a program searches
the text instead of the tree.
-/

def quoteMark : Char := '\x22'

def backslash : Char := '\x5c'

/-- The escape of a character in a string. -/
def escapeChar (char : Char) : List Char :=
  if char = quoteMark then [backslash, quoteMark]
  else if char = backslash then [backslash, backslash]
  else if char = '/' then [backslash, '/']
  else if char = '\n' then [backslash, 'n']
  else if char = '\r' then [backslash, 'r']
  else if char = '\t' then [backslash, 't']
  else if char = Char.ofNat 8 then [backslash, 'b']
  else if char = Char.ofNat 12 then [backslash, 'f']
  else if char.toNat < 32 then
    [backslash, 'u', '0', '0', Nat.digitChar (char.toNat / 16), Nat.digitChar (char.toNat % 16)]
  else [char]

def quoted (text : List Char) : List Char :=
  quoteMark :: text.flatMap escapeChar ++ [quoteMark]

mutual

/-- The text of a tree. -/
def render : Value → List Char
  | .null => "null".toList
  | .boolean true => "true".toList
  | .boolean false => "false".toList
  | .int value => (toString value).toList
  | .double text => text
  | .string text => quoted text
  | .array items => '[' :: renderItems items ++ " ]".toList
  | .object members => '\x7b' :: renderMembers members ++ " \x7d".toList

def renderItems : List Value → List Char
  | [] => []
  | [item] => ' ' :: item.render
  | item :: rest => ' ' :: item.render ++ ',' :: renderItems rest

def renderMembers : List (String × Value) → List Char
  | [] => []
  | [(key, item)] => ' ' :: quoted key.toList ++ ": ".toList ++ item.render
  | (key, item) :: rest =>
      ' ' :: quoted key.toList ++ ": ".toList ++ item.render ++ ',' :: renderMembers rest

end

/-- Each key of an object stands in quotes in the text of its members. -/
theorem quoted_infix_renderMembers {key : String} {members : List (String × Value)}
    (inside : key ∈ members.map Prod.fst) :
    quoted key.toList <:+: renderMembers members := by
  induction members with
  | nil => cases inside
  | cons first rest hypothesis =>
      obtain ⟨other, item⟩ := first
      rw [List.map_cons, List.mem_cons] at inside
      cases rest with
      | nil =>
          have same : key = other := by simpa using inside
          subst same
          exact ⟨[' '], ": ".toList ++ item.render, by simp [renderMembers]⟩
      | cons second later =>
          rw [renderMembers]
          rcases inside with rfl | further
          · exact ⟨[' '], ": ".toList ++ item.render ++ ',' :: renderMembers (second :: later),
              by simp⟩
          · have here := hypothesis further
            have behind : renderMembers (second :: later) <:+:
                ' ' :: quoted other.toList ++ ": ".toList ++ item.render ++
                  ',' :: renderMembers (second :: later) :=
              ⟨' ' :: quoted other.toList ++ ": ".toList ++ item.render ++ [','], [], by simp⟩
            exact here.trans behind
          · intro impossible
            cases impossible

theorem key_of_lookup {key : String} {value : Value} {members : List (String × Value)}
    (found : lookup key members = some value) : key ∈ members.map Prod.fst := by
  by_contra absent
  rw [lookup_eq_none absent] at found
  cases found

/-- The text of an object contains the keys of its members, in quotes. -/
theorem quoted_infix_render {tree value : Value} {key : String}
    (found : tree.get key = some value) : quoted key.toList <:+: tree.render := by
  cases tree with
  | object members =>
      have inside := quoted_infix_renderMembers (key_of_lookup found)
      have around : renderMembers members <:+: render (.object members) :=
        ⟨['\x7b'], " \x7d".toList, by simp [render]⟩
      exact inside.trans around
  | _ => cases found

/-- The text of a value: the content of a string, the text of any other tree, and
nothing for `null`, which is the absence of an object. -/
def text : Value → Option (List Char)
  | .null => none
  | .string text => some text
  | other => some other.render

@[simp] theorem text_string (content : List Char) : (string content).text = some content := rfl

end Value

end Json
