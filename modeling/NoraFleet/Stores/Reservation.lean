import NoraFleet.Base.Json

/-!
# Reservations to be stored

A reservation as the storages get it, and the dictionary that
`ReservationDictionaryConverter` makes of it. Ids and prefixes are any texts of
the interpreter, and the two times any values it can dump.
-/

namespace NoraFleet.Stores

open Base

/-- `AgentReservation`. -/
structure Reservation where
  id : PyStr
  idPrefix : PyStr
  lifetimeInSeconds : Json
  expirationTimeInSeconds : Json

namespace Reservation

/-- `AgentReservation(lifetime_in_seconds, prefix)`, with the id that `uuid4`
gives it. -/
def new (uuid : PyStr) (lifetimeInSeconds : Json) (idPrefix : PyStr) : Reservation where
  id := uuid
  idPrefix := if idPrefix = [] then [] else idPrefix ++ [45]
  lifetimeInSeconds := lifetimeInSeconds
  expirationTimeInSeconds := .float (.fin 0)

/-- `get_reservation_id()`. -/
def getReservationId (reservation : Reservation) : PyStr := reservation.idPrefix ++ reservation.id

/-- `to_dict(obj)`. -/
def toDict (reservation : Reservation) : List (PyStr × Json) :=
  [(str "id", .str reservation.getReservationId),
    (str "lifetime_in_seconds", reservation.lifetimeInSeconds),
    (str "expiration_time_in_seconds", reservation.expirationTimeInSeconds)]

end Reservation

end NoraFleet.Stores
