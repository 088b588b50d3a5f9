/-! Batches of pending ids, which are rebuilt together. -/
namespace EntityFeed.Pending

/-- Cuts a list into batches of `size`, the last of which may be shorter. A size of zero counts as
one. -/
def batches (size : Nat) : List String → List (List String)
  | [] => []
  | id :: rest => (id :: rest.take (size - 1)) :: batches size (rest.drop (size - 1))
termination_by ids => ids.length
decreasing_by simp only [List.length_drop, List.length_cons]; omega

/-- No id is lost and none changes its place. -/
@[simp] theorem flatten_batches (size : Nat) (ids : List String) :
    (batches size ids).flatten = ids := by
  fun_induction batches size ids with
  | case1 => rfl
  | case2 id rest ih => simp [ih]

example : batches 2 ["a", "b", "c"] = [["a", "b"], ["c"]] := by simp [batches]

end EntityFeed.Pending
