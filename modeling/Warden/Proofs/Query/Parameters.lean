import Warden.Proofs.Outcome
import Warden.Query.Parameters

/-! # Requests from parameters

How parameters are read does not depend on the collection they are meant for: the collection is put
into the request and looked at nowhere (`ofParameters_on`). So nothing is learned of a collection
from the way in which parameters for it are turned down. -/

namespace Warden.Request

/-- The request, made of another collection. -/
def on (r : Request) (collection : String) : Request :=
  { r with collection }

open Outcome in
/-- The parameters of a request on one collection are read like those of a request on another. -/
theorem ofParameters_on (c d : String) (parameters : Record) (defaultLimit : Int) :
    ofParameters d parameters defaultLimit =
      (ofParameters c parameters defaultLimit).map (·.on d) := by
  unfold ofParameters
  refine bind_eq_map_bind fun filter => bind_eq_map_bind fun aggregate =>
    bind_eq_map_bind fun relConditions => ?_
  cases filter with
  | null | record _ =>
      refine bind_eq_map_bind fun aggregate => bind_eq_map_bind fun relConditions => ?_
      cases parameters.get "search" with
      | null | text _ =>
          refine bind_eq_map_bind fun search => bind_eq_map_bind fun fields =>
            bind_eq_map_bind fun sort => bind_eq_map_bind fun page =>
            bind_eq_map_bind fun limit => bind_eq_map_bind fun offset =>
            bind_eq_map_bind fun searchFields => bind_eq_map_bind fun aggregate =>
            bind_eq_map_bind fun groups => bind_eq_map_bind fun groupBy => rfl
      | _ => rfl
  | _ => rfl

end Warden.Request
