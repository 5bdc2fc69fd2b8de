import SpecServer.Json.Basic
set_option autoImplicit false

/-!
Layering one document onto another: objects merge field by field, an array takes what comes at its end, and
any other node gives way unless what comes is `null`.
-/

namespace SpecServer.Json

mutual

def overlay (base layer : Json) : Json :=
  match base, layer with
  | object fields, object added => object (overlayFields fields added)
  | array items, array added => array (items ++ added)
  | array items, added => array (items ++ [added])
  | base, null => base
  | _, layer => layer
termination_by structural layer

def overlayFields (base : Entries String Json) (added : List (String × Json)) : Entries String Json :=
  match added with
  | [] => base
  | field :: rest => overlayFields (overlayField base field) rest
termination_by structural added

def overlayField (base : Entries String Json) (field : String × Json) : Entries String Json :=
  match field with
  | (key, value) =>
    match base.get? key with
    | some existing => base.put key (overlay existing value)
    | none => base.put key value
termination_by structural field

end

end SpecServer.Json
