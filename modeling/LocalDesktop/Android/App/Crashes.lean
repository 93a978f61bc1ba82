/- GID: LocalDesktop/Android/App/Crashes
   generality: G
   digest: The callbacks that the app does not survive. -/

import LocalDesktop.Android.App.Run
import Mathlib.Data.List.MinMax

set_option autoImplicit false
set_option relaxedAutoImplicit false

namespace LocalDesktop.Android.App

open Foundation.Transition Smithay Backend.Wayland

variable {scene : Scene} {backend : WaylandBackend} {startTime : Nat} {h : List Moment}
  {callback : Callback} {event : WindowEvent}

end LocalDesktop.Android.App
