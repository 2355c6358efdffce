import ValidatorDays.Binary64.Basic

namespace ValidatorDays

/-- What a text says as far as it is JSON. Two kinds of leaf may be passed over but not
read, and `broken` stands where the text stops being JSON: nothing comes after it. -/
inductive Json where
  | null
  | bool (b : Bool)
  | int (n : Int)
  | real (a : Binary64)
  | text (s : String)
  | list (items : List Json)
  /-- A name with half of a surrogate pair is `none`. -/
  | object (members : List (Option String × Json))
  | beyond
  | halfPair
  | broken
  deriving Repr

namespace Json

instance : Inhabited Json := ⟨.null⟩

mutual

def isWhole : Json → Bool
  | .list items => allWhole items
  | .object members => membersWhole members
  | .broken => false
  | .null | .bool _ | .int _ | .real _ | .text _ | .beyond | .halfPair => true

def allWhole : List Json → Bool
  | [] => true
  | item :: rest => item.isWhole && allWhole rest

def membersWhole : List (Option String × Json) → Bool
  | [] => true
  | (_, value) :: rest => value.isWhole && membersWhole rest

end

end Json
end ValidatorDays
