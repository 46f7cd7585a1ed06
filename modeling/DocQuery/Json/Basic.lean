import DocQuery.Number.Basic

/- JSON documents. The fields of an object keep the order in which their keys were first written. -/

namespace DocQuery

inductive Json where
  | null
  | bool (b : Bool)
  | number (n : Number)
  | string (s : String)
  | array (items : List Json)
  | object (fields : List (String × Json))

abbrev Fields := List (String × Json)

namespace Fields

def get? (fields : Fields) (key : String) : Option Json := fields.lookup key

def keys (fields : Fields) : List String := fields.map Prod.fst

def values (fields : Fields) : List Json := fields.map Prod.snd

/-- A key that is there keeps its place and takes the new value; a new one comes last. -/
def insert (key : String) (value : Json) : Fields → Fields
  | [] => [(key, value)]
  | (k, v) :: rest => if k = key then (key, value) :: rest else (k, v) :: insert key value rest

def overlay (fields : Fields) (upper : Fields) : Fields :=
  upper.foldl (fun fields (key, value) => fields.insert key value) fields

/-- The fields of a list whose keys may repeat. -/
def ofList (entries : List (String × Json)) : Fields := overlay [] entries

/-- Applies a function to the value of a key, in place. -/
def modify (key : String) (f : Json → Json) : Fields → Fields
  | [] => []
  | (k, v) :: rest => if k = key then (k, f v) :: rest else (k, v) :: modify key f rest

theorem get?_nil (key : String) : get? [] key = none := rfl

theorem get?_cons_self (key : String) (value : Json) (rest : Fields) :
    get? ((key, value) :: rest) key = some value := List.lookup_cons_self

theorem get?_cons_of_ne {key k : String} (h : k ≠ key) (v : Json) (rest : Fields) :
    get? ((k, v) :: rest) key = get? rest key := by
  have hne : (key == k) = false := beq_false_of_ne (Ne.symm h)
  rw [get?, get?, List.lookup_cons, hne]

theorem get?_insert_self (fields : Fields) (key : String) (value : Json) :
    (insert key value fields).get? key = some value := by
  induction fields with
  | nil => exact get?_cons_self key value []
  | cons field rest ih =>
    obtain ⟨k, v⟩ := field
    by_cases h : k = key
    · rw [insert, if_pos h]
      exact get?_cons_self key value rest
    · rw [insert, if_neg h, get?_cons_of_ne h]
      exact ih

theorem get?_insert_of_ne {key other : String} (h : key ≠ other) (fields : Fields) (value : Json) :
    (insert key value fields).get? other = fields.get? other := by
  induction fields with
  | nil => exact get?_cons_of_ne h value []
  | cons field rest ih =>
    obtain ⟨k, v⟩ := field
    by_cases hk : k = key
    · subst hk
      rw [insert, if_pos rfl, get?_cons_of_ne h, get?_cons_of_ne h]
    · rw [insert, if_neg hk]
      by_cases ho : k = other
      · subst ho
        rw [get?_cons_self, get?_cons_self]
      · rw [get?_cons_of_ne ho, get?_cons_of_ne ho]
        exact ih

end Fields

namespace Json

instance : Inhabited Json := ⟨.null⟩

def get? : Json → String → Option Json
  | .object fields, key => Fields.get? fields key
  | _, _ => none

def isObject : Json → Bool
  | .object _ => true
  | _ => false

def isNumber : Json → Bool
  | .number _ => true
  | _ => false

mutual

/-- Equality of documents: arrays item by item, objects whatever the order of their fields, and
numbers within their kind. -/
def same : Json → Json → Bool
  | .null, .null => true
  | .bool a, .bool b => a == b
  | .number a, .number b => a.same b
  | .string a, .string b => a == b
  | .array as, .array bs => sameItems as bs
  | .object as, .object bs => as.length == bs.length && sameFields as bs
  | _, _ => false

def sameItems : List Json → List Json → Bool
  | [], [] => true
  | a :: as, b :: bs => same a b && sameItems as bs
  | _, _ => false

/-- Every field of the first list has an equal value in the second. -/
def sameFields : List (String × Json) → Fields → Bool
  | [], _ => true
  | (key, a) :: rest, fields =>
    (match Fields.get? fields key with
      | some b => same a b
      | none => false) && sameFields rest fields

end

end Json
end DocQuery
