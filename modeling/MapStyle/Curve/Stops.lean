import MapStyle.Scalar

/-!
# Finding a stop

`findStop stops x` is a binary search for the last stop that is not above `x`. It yields an index
also where there is no such stop, or the stops are out of order or not comparable: zero, or the one
before the last stop that it looked at.
-/

namespace MapStyle.Curve

variable {N : Type} [Scalar N]

/-- Searches the `width` stops from index `first` on. `last` is the index looked at before. -/
def searchStops (stops : List N) (x : N) (first width last : Nat) : Nat :=
  if 0 < width then
    let middle := first + (width - 1) / 2
    match stops[middle]? with
    | none => last - 1
    | some stop =>
      let belowNext := match stops[middle + 1]? with
        | some next => Scalar.less x next
        | none => false
      if x == stop || (Scalar.less stop x && belowNext) then middle
      else if Scalar.less stop x then
        searchStops stops x (middle + 1) (first + width - (middle + 1)) middle
      else if Scalar.less x stop then searchStops stops x first (middle - first) middle
      else middle - 1
  else last - 1
termination_by width
decreasing_by all_goals omega

/-- The index of the last stop that is not above `x`, or zero. -/
def findStop (stops : List N) (x : N) : Nat :=
  searchStops stops x 0 stops.length 0

end MapStyle.Curve
