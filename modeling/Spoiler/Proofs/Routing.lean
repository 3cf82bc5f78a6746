/-
Which request leads where.

No two routes share an address and a method, except that the page of a restaurant, whose
`{id}` may be any text, also has the address `restaurant/subscript`.  It stands before the
page of that address, so that page cannot be reached.
-/
import Spoiler.App.Router

namespace Spoiler

open Php

namespace Endpoint

/-- Every pair of lines is compared, the earlier with the later one. -/
theorem routes_apart :
    routes.Pairwise fun d e => e.action ≠ getSubscriptUsers → d.clashes e = false := by
  decide +kernel

theorem routes_nodup : (routes.map Entry.action).Nodup := by
  decide +kernel

/-- The line of the page nobody reaches, behind the line that answers in its place. -/
theorem getSubscriptUsers_shadowed : ∃ before after line,
    routes = before ++ line :: after ∧ line.action = getSubscriptUsers ∧
      ∃ d ∈ before, d.shadows line = true := by
  refine ⟨routes.take 21, routes.drop 22, ⟨[.get, .head], _, getSubscriptUsers⟩, rfl, rfl,
    ⟨[.get, .head], [.text "api", .text "restaurant", id], restaurantLook⟩, ?_, by decide⟩
  decide

theorem clear_of_mem {before after : List Line} {line : Line}
    (hroutes : routes = before ++ line :: after) (haction : line.action ≠ getSubscriptUsers) :
    ∀ d ∈ before, d.clashes line = false := by
  have hapart := routes_apart
  rw [hroutes, List.pairwise_append] at hapart
  intro d hd
  exact hapart.2.2 d hd line (List.mem_cons_self ..) haction

/-- **A request reaches an endpoint exactly if it has a method and an address of its line,
and the endpoint is not `getSubscriptUsers`.**  What stands in the address in the place of
`{id}` is what the endpoint is given. -/
theorem endpoint_reached_iff (method : Method) (path params : List String) (endpoint : Endpoint) :
    resolve routes method path = some (endpoint, params) ↔
      endpoint ≠ getSubscriptUsers ∧ ∃ line ∈ routes, line.action = endpoint ∧
        method ∈ line.methods ∧ line.pattern.Fits params ∧ line.pattern.address params = path := by
  constructor
  · intro h
    obtain ⟨line, hmem, haccept⟩ := resolve_mem h
    obtain ⟨hmethod, hparams, haction⟩ := Entry.accept_eq_some.mp haccept
    refine ⟨?_, line, hmem, haction, hmethod, Pattern.params_eq_some.mp hparams⟩
    rintro rfl
    obtain ⟨before, after, dead, hroutes, hdead, d, hd, hshadows⟩ := getSubscriptUsers_shadowed
    rw [← hdead] at h
    exact resolve_ne_of_shadows hroutes routes_nodup hd hshadows h
  · rintro ⟨hne, line, hmem, rfl, hmethod, hfits⟩
    obtain ⟨before, after, hroutes⟩ := List.append_of_mem hmem
    exact resolve_of_not_clashes hroutes (clear_of_mem hroutes hne)
      (Entry.accept_eq_some.mpr ⟨hmethod, Pattern.params_eq_some.mpr hfits, rfl⟩)

example : resolve routes .get ["api", "restaurant", "subscript"] =
    some (restaurantLook, ["subscript"]) := by decide +kernel

end Endpoint

end Spoiler
