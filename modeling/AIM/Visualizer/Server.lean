import AIM.Visualizer.Page

namespace AIM.Visualizer

open Decimal

/-! # The Node.js server

`server.js` between the UDP socket and the browsers. The map message is kept for the
clients that connect; everything else is forwarded to those that are connected. -/

structure Server where
  mapboxToken : Text
  mapmsg : Option Text

namespace Server

def keepMap (server : Server) (msg : Text) : Server :=
  { server with mapmsg := some (msg ++ ',' :: server.mapboxToken) }

/-- The callback for a datagram: the server afterwards and what is sent to all clients.
There is no result when the process exits. -/
def onDatagram (server : Server) (msg : Text) : Option (Server × Option Text) :=
  if kindOf msg = "map".toList then
    if (splitComma msg).length ≠ 3 then none
    else if server.mapmsg.isSome then none
    else some (server.keepMap msg, none)
  else if kindOf msg = "map_areas".toList then
    if (splitComma msg).length ≠ 9 then none
    else if server.mapmsg.isSome then none
    else some (server.keepMap msg, none)
  else if kindOf msg = "terminate".toList then none
  else some (server, some msg)

theorem onDatagram_of_isMap (server : Server) {msg : Text} (isMap : IsMap msg) :
    server.onDatagram msg =
      if (splitComma msg).length ≠ (if kindOf msg = "map".toList then 3 else 9) then none
      else if server.mapmsg.isSome then none
      else some (server.keepMap msg, none) := by
  rw [onDatagram]
  rcases isMap with map | areas
  · rw [if_pos map, if_pos map]
  · have notMap : ¬kindOf msg = "map".toList := by
      rw [areas]
      decide
    rw [if_neg notMap, if_pos areas, if_neg notMap]

theorem onDatagram_of_not_isMap (server : Server) {msg : Text} (notMap : ¬IsMap msg) :
    server.onDatagram msg =
      if kindOf msg = "terminate".toList then none else some (server, some msg) := by
  rw [onDatagram, if_neg fun map => notMap (.inl map), if_neg fun areas => notMap (.inr areas)]

theorem onDatagram_cases {server next : Server} {msg : Text} {forwarded : Option Text}
    (handled : server.onDatagram msg = some (next, forwarded)) :
    (IsMap msg ∧ (splitComma msg).length = (if kindOf msg = "map".toList then 3 else 9) ∧
        server.mapmsg = none ∧ next = server.keepMap msg ∧ forwarded = none) ∨
      (¬IsMap msg ∧ next = server ∧ forwarded = some msg) := by
  by_cases isMap : IsMap msg
  · rw [onDatagram_of_isMap server isMap] at handled
    by_cases length : (splitComma msg).length ≠
        if kindOf msg = "map".toList then 3 else 9
    · rw [if_pos length] at handled
      cases handled
    · rw [if_neg length] at handled
      cases first : server.mapmsg with
      | some text =>
          rw [first] at handled
          cases handled
      | none =>
          rw [first] at handled
          cases handled
          exact .inl ⟨isMap, not_not.mp length, rfl, rfl, rfl⟩
  · rw [onDatagram_of_not_isMap server isMap] at handled
    split at handled
    · cases handled
    · cases handled
      exact .inr ⟨isMap, rfl, rfl⟩

theorem onDatagram_mapText {server : Server} (first : server.mapmsg = none) (lat lon : ℚ) :
    server.onDatagram (mapText lat lon) = some (server.keepMap (mapText lat lon), none) := by
  rw [onDatagram_of_isMap server (isMap_mapText lat lon), kindOf, splitComma_mapText, first]
  rfl

theorem onDatagram_of_isObject (server : Server) {msg : Text} (isObject : IsObject msg) :
    server.onDatagram msg = some (server, some msg) := by
  rw [onDatagram_of_not_isMap server (not_isMap_of_isObject isObject), if_neg]
  intro terminate
  rcases isObject with object | object
  · exact absurd (terminate.symm.trans object) (by decide)
  · exact absurd (terminate.symm.trans object) (by decide)

theorem drawable_keepMap {server : Server} {msg : Text} (isMap : IsMap msg)
    (length : (splitComma msg).length = if kindOf msg = "map".toList then 3 else 9)
    (single : ',' ∉ server.mapboxToken) {text : Text}
    (kept : (server.keepMap msg).mapmsg = some text) : Page.Drawable text := by
  cases kept
  have same := kindOf_append_field msg server.mapboxToken single
  constructor
  · unfold IsMap
    rw [same]
    exact isMap
  · rw [same, splitComma_append msg server.mapboxToken single, List.length_append, length]
    split <;> rfl

end Server

end AIM.Visualizer
