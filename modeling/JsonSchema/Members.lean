/-!
Members of an object as a list of pairs. Under distinct keys a key keeps its first place and its last
value; sorted members stand in ascending order of their keys.
-/

namespace JsonSchema.Members

variable {α : Type}

/-- Sets the member `key`: an existing member keeps its place and takes the value, a new one comes last. -/
def insert (key : String) (value : α) : List (String × α) → List (String × α)
  | [] => [(key, value)]
  | (k, v) :: rest => if k = key then (k, value) :: rest else (k, v) :: insert key value rest

/-- The members of a list under distinct keys: a key keeps its first place and its last value. -/
def ofList (members : List (String × α)) : List (String × α) :=
  members.foldl (fun acc m => insert m.1 m.2 acc) []

/-- Puts a member in front of the first one with a larger key, in place of one with the same key. -/
def insertSorted (key : String) (value : α) : List (String × α) → List (String × α)
  | [] => [(key, value)]
  | (k, v) :: rest =>
    if k = key then (key, value) :: rest
    else if key < k then (key, value) :: (k, v) :: rest
    else (k, v) :: insertSorted key value rest

/-- The members in ascending order of their keys, the last of each key. -/
def sorted (members : List (String × α)) : List (String × α) :=
  members.foldl (fun acc m => insertSorted m.1 m.2 acc) []

end JsonSchema.Members
