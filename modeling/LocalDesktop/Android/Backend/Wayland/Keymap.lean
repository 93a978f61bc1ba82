/- GID: LocalDesktop/Android/Backend/Wayland/Keymap
   generality: G
   digest: From the physical keys of winit to the codes of the Linux input layer. -/

set_option autoImplicit false
set_option relaxedAutoImplicit false

namespace LocalDesktop.Android.Backend.Wayland

/-- The codes of the keymap; every further code of winit is an `other` one. -/
inductive KeyCode
  | escape | digit1 | digit2 | digit3 | digit4 | digit5 | digit6 | digit7
  | digit8 | digit9 | digit0 | minus | equal | backspace | tab | keyQ | keyW | keyE | keyR
  | keyT | keyY | keyU | keyI | keyO | keyP | bracketLeft | bracketRight | enter | controlLeft
  | keyA | keyS | keyD | keyF | keyG | keyH | keyJ | keyK | keyL | semicolon | quote | backquote
  | shiftLeft | backslash | keyZ | keyX | keyC | keyV | keyB | keyN | keyM | comma | period
  | slash | shiftRight | numpadMultiply | altLeft | space | capsLock | f1 | f2 | f3 | f4 | f5
  | f6 | f7 | f8 | f9 | f10 | numLock | scrollLock | numpad7 | numpad8 | numpad9
  | numpadSubtract | numpad4 | numpad5 | numpad6 | numpadAdd | numpad1 | numpad2 | numpad3
  | numpad0 | numpadDecimal | lang5 | intlBackslash | f11 | f12 | intlRo | lang3 | lang4
  | convert | kanaMode | nonConvert | numpadEnter | controlRight | numpadDivide | printScreen
  | altRight | home | arrowUp | pageUp | arrowLeft | arrowRight | endKey | arrowDown | pageDown
  | insert | delete | audioVolumeMute | audioVolumeDown | audioVolumeUp | numpadEqual | pause
  | numpadComma | lang1 | lang2 | intlYen | superLeft | superRight | contextMenu
  | mediaTrackNext | mediaPlayPause | mediaTrackPrevious | mediaStop | f13 | f14 | f15 | f16
  | f17 | f18 | f19 | f20 | f21 | f22 | f23 | f24
  | other (index : Nat)
  deriving DecidableEq

inductive NativeKeyCode
  | unidentified
  | android (code : Nat)
  | macOS (code : Nat)
  | windows (code : Nat)
  | xkb (raw : Nat)
  deriving DecidableEq

inductive PhysicalKey
  | code (code : KeyCode)
  | unidentified (code : NativeKeyCode)
  deriving DecidableEq

def KeyCode.scancode : KeyCode → Option Nat
  | .escape => some 1
  | .digit1 => some 2
  | .digit2 => some 3
  | .digit3 => some 4
  | .digit4 => some 5
  | .digit5 => some 6
  | .digit6 => some 7
  | .digit7 => some 8
  | .digit8 => some 9
  | .digit9 => some 10
  | .digit0 => some 11
  | .minus => some 12
  | .equal => some 13
  | .backspace => some 14
  | .tab => some 15
  | .keyQ => some 16
  | .keyW => some 17
  | .keyE => some 18
  | .keyR => some 19
  | .keyT => some 20
  | .keyY => some 21
  | .keyU => some 22
  | .keyI => some 23
  | .keyO => some 24
  | .keyP => some 25
  | .bracketLeft => some 26
  | .bracketRight => some 27
  | .enter => some 28
  | .controlLeft => some 29
  | .keyA => some 30
  | .keyS => some 31
  | .keyD => some 32
  | .keyF => some 33
  | .keyG => some 34
  | .keyH => some 35
  | .keyJ => some 36
  | .keyK => some 37
  | .keyL => some 38
  | .semicolon => some 39
  | .quote => some 40
  | .backquote => some 41
  | .shiftLeft => some 42
  | .backslash => some 43
  | .keyZ => some 44
  | .keyX => some 45
  | .keyC => some 46
  | .keyV => some 47
  | .keyB => some 48
  | .keyN => some 49
  | .keyM => some 50
  | .comma => some 51
  | .period => some 52
  | .slash => some 53
  | .shiftRight => some 54
  | .numpadMultiply => some 55
  | .altLeft => some 56
  | .space => some 57
  | .capsLock => some 58
  | .f1 => some 59
  | .f2 => some 60
  | .f3 => some 61
  | .f4 => some 62
  | .f5 => some 63
  | .f6 => some 64
  | .f7 => some 65
  | .f8 => some 66
  | .f9 => some 67
  | .f10 => some 68
  | .numLock => some 69
  | .scrollLock => some 70
  | .numpad7 => some 71
  | .numpad8 => some 72
  | .numpad9 => some 73
  | .numpadSubtract => some 74
  | .numpad4 => some 75
  | .numpad5 => some 76
  | .numpad6 => some 77
  | .numpadAdd => some 78
  | .numpad1 => some 79
  | .numpad2 => some 80
  | .numpad3 => some 81
  | .numpad0 => some 82
  | .numpadDecimal => some 83
  | .lang5 => some 85
  | .intlBackslash => some 86
  | .f11 => some 87
  | .f12 => some 88
  | .intlRo => some 89
  | .lang3 => some 90
  | .lang4 => some 91
  | .convert => some 92
  | .kanaMode => some 93
  | .nonConvert => some 94
  | .numpadEnter => some 96
  | .controlRight => some 97
  | .numpadDivide => some 98
  | .printScreen => some 99
  | .altRight => some 100
  | .home => some 102
  | .arrowUp => some 103
  | .pageUp => some 104
  | .arrowLeft => some 105
  | .arrowRight => some 106
  | .endKey => some 107
  | .arrowDown => some 108
  | .pageDown => some 109
  | .insert => some 110
  | .delete => some 111
  | .audioVolumeMute => some 113
  | .audioVolumeDown => some 114
  | .audioVolumeUp => some 115
  | .numpadEqual => some 117
  | .pause => some 119
  | .numpadComma => some 121
  | .lang1 => some 122
  | .lang2 => some 123
  | .intlYen => some 124
  | .superLeft => some 125
  | .superRight => some 126
  | .contextMenu => some 127
  | .mediaTrackNext => some 163
  | .mediaPlayPause => some 164
  | .mediaTrackPrevious => some 165
  | .mediaStop => some 166
  | .f13 => some 183
  | .f14 => some 184
  | .f15 => some 185
  | .f16 => some 186
  | .f17 => some 187
  | .f18 => some 188
  | .f19 => some 189
  | .f20 => some 190
  | .f21 => some 191
  | .f22 => some 192
  | .f23 => some 193
  | .f24 => some 194
  | .other _ => none

def physicalkeyToScancode : PhysicalKey → Option Nat
  | .code code => code.scancode
  | .unidentified .unidentified => some 240
  | .unidentified (.xkb raw) => some raw
  | .unidentified _ => none

end LocalDesktop.Android.Backend.Wayland
