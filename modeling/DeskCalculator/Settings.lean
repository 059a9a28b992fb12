/-
This file holds the settings of a calculator: the angle mode where none is
asked for, the number of records on a page of history, and the limit on the
levels of nesting. Every setter moves a requested number between its bounds, so
settings out of bounds do not exist.
-/

import DeskCalculator.Angle
import DeskCalculator.Engine

namespace DeskCalculator

/-- The greatest number of records on a page of history. -/
def greatestPage : Nat := 100

/-- The number of records on a page of history where none is set. -/
def usualPage : Nat := 50

/-- The settings of a calculator. -/
structure Settings where
  mode : AngleMode := .degrees
  page : Nat := usualPage
  engine : Engine := {}
  page_bounds : 1 ≤ page ∧ page ≤ greatestPage := by decide

namespace Settings

/-- A requested page size, moved between one and the greatest page. -/
def clampPage (requested : Nat) : Nat :=
  max 1 (min requested greatestPage)

theorem clampPage_bounds (requested : Nat) :
    1 ≤ clampPage requested ∧ clampPage requested ≤ greatestPage := by
  unfold clampPage greatestPage; omega

/-- Sets the angle mode. -/
def withMode (settings : Settings) (mode : AngleMode) : Settings :=
  { settings with mode }

/-- Sets the page size to the admissible one nearest to the request. -/
def withPage (settings : Settings) (requested : Nat) : Settings :=
  { settings with page := clampPage requested, page_bounds := clampPage_bounds requested }

/-- Sets the limit on the levels of nesting to the admissible one nearest to the request. -/
def withLimit (settings : Settings) (requested : Nat) : Settings :=
  { settings with engine := Engine.ofLimit requested }

end Settings

end DeskCalculator
