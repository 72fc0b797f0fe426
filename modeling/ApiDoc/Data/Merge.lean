import ApiDoc.Data.Basic

/-!
# Layers of data

A layer of entries over a base: where both hold a map at a key the maps are merged, and elsewhere
the layer wins. The keys of the base come first, in their order.
-/

namespace ApiDoc.Data

mutual

/-- A value laid over what was at its key before. -/
def mergeValue (base : Option Data) : Data → Data
  | .map entries =>
    match base with
    | some (.map old) => .map (Entries.merge old entries)
    | _ => .map entries
  | value => value

/-- A layer over a base. -/
def Entries.merge (base : Entries) : List (Scalar × Data) → Entries
  | [] => base
  | (key, value) :: rest => Entries.merge (Entries.put base key (mergeValue (Entries.get? base key) value)) rest

end

end ApiDoc.Data
