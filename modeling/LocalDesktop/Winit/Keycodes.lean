/- GID: LocalDesktop/Winit/Keycodes
   generality: G
   digest: The keycodes of Android as physical keys, and what the compositor makes of them. -/

import LocalDesktop.Android.Backend.Wayland.Keymap

set_option autoImplicit false
set_option relaxedAutoImplicit false

namespace LocalDesktop.Winit

open Android.Backend.Wayland

/-- The keycodes of the table; every further one, such as that of Caps Lock, is an `other`. -/
inductive Keycode
  | a | b | c | d | e | f | g | h | i | j | k | l | m | n | o | p | q | r | s | t | u | v | w
  | x | y | z | keycode0 | keycode1 | keycode2 | keycode3 | keycode4 | keycode5 | keycode6
  | keycode7 | keycode8 | keycode9 | numpad0 | numpad1 | numpad2 | numpad3 | numpad4 | numpad5
  | numpad6 | numpad7 | numpad8 | numpad9 | numpadAdd | numpadSubtract | numpadMultiply
  | numpadDivide | numpadEnter | numpadEquals | numpadComma | numpadDot | numLock | dpadLeft
  | dpadRight | dpadUp | dpadDown | f1 | f2 | f3 | f4 | f5 | f6 | f7 | f8 | f9 | f10 | f11 | f12
  | space | escape | enter | tab | pageUp | pageDown | moveHome | moveEnd | insert | del
  | forwardDel | copy | paste | cut | volumeUp | volumeDown | volumeMute | mediaPlayPause
  | mediaStop | mediaNext | mediaPrevious | plus | minus | equals | semicolon | slash
  | backslash | comma | period | apostrophe | grave | sysrq | breakKey | scrollLock | yen | kana
  | katakanaHiragana | ctrlLeft | ctrlRight | shiftLeft | shiftRight | altLeft | altRight
  | metaLeft | metaRight | leftBracket | rightBracket | power | sleep | wakeup
  | other (code : Nat)
  deriving DecidableEq

def toPhysicalKey : Keycode → PhysicalKey
  | .a => .code .keyA
  | .b => .code .keyB
  | .c => .code .keyC
  | .d => .code .keyD
  | .e => .code .keyE
  | .f => .code .keyF
  | .g => .code .keyG
  | .h => .code .keyH
  | .i => .code .keyI
  | .j => .code .keyJ
  | .k => .code .keyK
  | .l => .code .keyL
  | .m => .code .keyM
  | .n => .code .keyN
  | .o => .code .keyO
  | .p => .code .keyP
  | .q => .code .keyQ
  | .r => .code .keyR
  | .s => .code .keyS
  | .t => .code .keyT
  | .u => .code .keyU
  | .v => .code .keyV
  | .w => .code .keyW
  | .x => .code .keyX
  | .y => .code .keyY
  | .z => .code .keyZ
  | .keycode0 => .code .digit0
  | .keycode1 => .code .digit1
  | .keycode2 => .code .digit2
  | .keycode3 => .code .digit3
  | .keycode4 => .code .digit4
  | .keycode5 => .code .digit5
  | .keycode6 => .code .digit6
  | .keycode7 => .code .digit7
  | .keycode8 => .code .digit8
  | .keycode9 => .code .digit9
  | .numpad0 => .code .numpad0
  | .numpad1 => .code .numpad1
  | .numpad2 => .code .numpad2
  | .numpad3 => .code .numpad3
  | .numpad4 => .code .numpad4
  | .numpad5 => .code .numpad5
  | .numpad6 => .code .numpad6
  | .numpad7 => .code .numpad7
  | .numpad8 => .code .numpad8
  | .numpad9 => .code .numpad9
  | .numpadAdd => .code .numpadAdd
  | .numpadSubtract => .code .numpadSubtract
  | .numpadMultiply => .code .numpadMultiply
  | .numpadDivide => .code .numpadDivide
  | .numpadEnter => .code .numpadEnter
  | .numpadEquals => .code .numpadEqual
  | .numpadComma => .code .numpadComma
  | .numpadDot => .code .numpadDecimal
  | .numLock => .code .numLock
  | .dpadLeft => .code .arrowLeft
  | .dpadRight => .code .arrowRight
  | .dpadUp => .code .arrowUp
  | .dpadDown => .code .arrowDown
  | .f1 => .code .f1
  | .f2 => .code .f2
  | .f3 => .code .f3
  | .f4 => .code .f4
  | .f5 => .code .f5
  | .f6 => .code .f6
  | .f7 => .code .f7
  | .f8 => .code .f8
  | .f9 => .code .f9
  | .f10 => .code .f10
  | .f11 => .code .f11
  | .f12 => .code .f12
  | .space => .code .space
  | .escape => .code .escape
  | .enter => .code .enter
  | .tab => .code .tab
  | .pageUp => .code .pageUp
  | .pageDown => .code .pageDown
  | .moveHome => .code .home
  | .moveEnd => .code .endKey
  | .insert => .code .insert
  | .del => .code .backspace
  | .forwardDel => .code .delete
  | .copy => .code (.other 149)
  | .paste => .code (.other 153)
  | .cut => .code (.other 150)
  | .volumeUp => .code .audioVolumeUp
  | .volumeDown => .code .audioVolumeDown
  | .volumeMute => .code .audioVolumeMute
  | .mediaPlayPause => .code .mediaPlayPause
  | .mediaStop => .code .mediaStop
  | .mediaNext => .code .mediaTrackNext
  | .mediaPrevious => .code .mediaTrackPrevious
  | .plus => .code .equal
  | .minus => .code .minus
  | .equals => .code .equal
  | .semicolon => .code .semicolon
  | .slash => .code .slash
  | .backslash => .code .backslash
  | .comma => .code .comma
  | .period => .code .period
  | .apostrophe => .code .quote
  | .grave => .code .backquote
  | .sysrq => .code .printScreen
  | .breakKey => .code .pause
  | .scrollLock => .code .scrollLock
  | .yen => .code .intlYen
  | .kana => .code .lang1
  | .katakanaHiragana => .code .kanaMode
  | .ctrlLeft => .code .controlLeft
  | .ctrlRight => .code .controlRight
  | .shiftLeft => .code .shiftLeft
  | .shiftRight => .code .shiftRight
  | .altLeft => .code .altLeft
  | .altRight => .code .altRight
  | .metaLeft => .code .superLeft
  | .metaRight => .code .superRight
  | .leftBracket => .code .bracketLeft
  | .rightBracket => .code .bracketRight
  | .power => .code (.other 136)
  | .sleep => .code (.other 137)
  | .wakeup => .code (.other 141)
  | .other code => .unidentified (.android code)

end LocalDesktop.Winit
