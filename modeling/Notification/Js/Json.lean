import Mathlib.Tactic.Common

/-!
# JavaScript values as they travel in JSON

`JSON.stringify` and `JSON.parse` are inverse on the values that are sent, so a
JSON text is represented by the value it denotes. Every number the services write
is an attempt count and so an integer; a client may send others, and of these only
the text matters that JavaScript prints for them.
-/

namespace Notification

/-- A thrown JavaScript `Error`, with the `code` that mysql2 adds to its own. -/
structure JsError where
  name : String := "Error"
  message : String
  code : Option String := none
  deriving DecidableEq, Repr

namespace JsError

def typeError (message : String) : JsError := { name := "TypeError", message }

def syntaxError (message : String) : JsError := { name := "SyntaxError", message }

end JsError

inductive Json where
  | null
  | bool (b : Bool)
  | number (n : Int)
  | otherNumber (text : String)
  | string (s : String)
  | array (items : List Json)
  | object (fields : List (String × Json))

namespace Json

/-- Property access. Anything but an object has no such property. -/
def get? : Json → String → Option Json
  | .object fields, name => fields.lookup name
  | _, _ => none

def string? : Json → Option String
  | .string s => some s
  | _ => none

/-- A field that is declared as a string; a value of another type is read as missing. -/
def stringField (j : Json) (name : String) : Option String := (j.get? name).bind string?

/-- An object literal, as `JSON.stringify` sees it: a field that is `undefined` is dropped. -/
def ofFields (fields : List (String × Option Json)) : Json :=
  .object (fields.filterMap fun f => f.2.map fun j => (f.1, j))

/-- Reading a field back from an object literal without repeated names. -/
theorem get?_ofFields (fields : List (String × Option Json)) (nodup : (fields.map Prod.fst).Nodup)
    (name : String) : (ofFields fields).get? name = (fields.lookup name).join := by
  induction fields with
  | nil => rfl
  | cons f rest ih =>
      obtain ⟨field, value⟩ := f
      rw [List.map_cons, List.nodup_cons] at nodup
      have hrest := ih nodup.2
      by_cases hname : name = field
      · subst hname
        cases value with
        | none =>
            have habsent : rest.lookup name = none := List.lookup_eq_none_iff.mpr fun p hp =>
              bne_iff_ne.mpr fun h => nodup.1 (List.mem_map.mpr ⟨p, hp, h.symm⟩)
            simpa [ofFields, habsent] using hrest
        | some j => simp [ofFields, get?]
      · have hbeq : (name == field) = false := beq_false_of_ne hname
        cases value with
        | none => simpa [ofFields, List.lookup_cons, hbeq] using hrest
        | some j => simpa [ofFields, get?, List.lookup_cons, hbeq] using hrest

mutual
/-- `String(value)`. An object that hides `toString` under a field of that name has
no primitive value. -/
def toText : Json → Except JsError String
  | .null => .ok "null"
  | .bool b => .ok (if b then "true" else "false")
  | .number n => .ok (toString n)
  | .otherNumber text => .ok text
  | .string s => .ok s
  | .array items => joinTexts items
  | .object fields =>
    if fields.any (fun f => f.1 == "toString") then
      .error (.typeError "Cannot convert object to primitive value")
    else .ok "[object Object]"
/-- `Array.prototype.join(",")`, in which `null` is the empty text. -/
def joinTexts : List Json → Except JsError String
  | [] => .ok ""
  | item :: rest =>
    match (if item matches .null then .ok "" else toText item), rest, joinTexts rest with
    | .error e, _, _ => .error e
    | .ok text, [], _ => .ok text
    | .ok _, _ :: _, .error e => .error e
    | .ok text, _ :: _, .ok others => .ok (text ++ "," ++ others)
end

/-- A character as it stands in a JSON text. -/
def escaped (c : Char) : List Char :=
  if c.toNat = 34 ∨ c.toNat = 92 then [Char.ofNat 92, c]
  else if c.toNat = 8 then "\\b".toList
  else if c.toNat = 9 then "\\t".toList
  else if c.toNat = 10 then "\\n".toList
  else if c.toNat = 12 then "\\f".toList
  else if c.toNat = 13 then "\\r".toList
  else if c.toNat < 32 then
    "\\u00".toList ++ [Nat.digitChar (c.toNat / 16), Nat.digitChar (c.toNat % 16)]
  else [c]

def quoted (s : String) : String := "\"" ++ String.ofList (s.toList.flatMap escaped) ++ "\""

mutual
/-- `JSON.stringify(value)` -/
def stringify : Json → String
  | .null => "null"
  | .bool b => if b then "true" else "false"
  | .number n => toString n
  | .otherNumber text => text
  | .string s => quoted s
  | .array items => "[" ++ ",".intercalate (stringifyItems items) ++ "]"
  | .object fields => "\x7b" ++ ",".intercalate (stringifyFields fields) ++ "\x7d"
def stringifyItems : List Json → List String
  | [] => []
  | item :: rest => stringify item :: stringifyItems rest
def stringifyFields : List (String × Json) → List String
  | [] => []
  | field :: rest => stringifyField field :: stringifyFields rest
def stringifyField : String × Json → String
  | (name, value) => quoted name ++ ":" ++ stringify value
end

/-- The text that a text column holds of a value that is bound for it: mysql2 sends a boolean as
0 or 1 and an array or an object as its JSON text. -/
def boundText? : Json → Option String
  | .null => none
  | .bool b => some (if b then "1" else "0")
  | .number n => some (toString n)
  | .otherNumber text => some text
  | .string s => some s
  | value => some value.stringify

/-- A field that is bound for a text column. -/
def boundField (j : Json) (name : String) : Option String := (j.get? name).bind boundText?

/-- The same for a field that is only used if it is truthy. An empty text is left to the code
that uses it. -/
def truthyField (j : Json) (name : String) : Option String :=
  match j.get? name with
  | some (.bool false) | some (.number 0) => none
  | value => value.bind boundText?

/-- `!value` is false; a missing property is `undefined`. Of the numbers only zero is
falsy, since JSON has no `NaN`. -/
def truthy : Option Json → Bool
  | none => false
  | some .null => false
  | some (.bool b) => b
  | some (.number n) => n != 0
  | some (.otherNumber _) => true
  | some (.string s) => s != ""
  | some (.array _) => true
  | some (.object _) => true

/-- `${value}` in a template string. -/
def templateText : Option Json → Except JsError String
  | none => .ok "undefined"
  | some j => j.toText

@[simp] theorem templateText_string (s : String) : templateText (some (.string s)) = .ok s := by
  simp [templateText, toText]

end Json

end Notification
