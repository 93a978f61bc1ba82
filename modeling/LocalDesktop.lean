import LocalDesktop.Foundation.ByteLines
import LocalDesktop.Foundation.Strings
import LocalDesktop.Foundation.Override
import LocalDesktop.Foundation.FileTree
import LocalDesktop.Foundation.RelativePath
import LocalDesktop.Foundation.Effects
import LocalDesktop.Foundation.Served
import LocalDesktop.Foundation.Strokes
import LocalDesktop.Foundation.Pipes
import LocalDesktop.Foundation.Rounding
import LocalDesktop.Foundation.Forest
import LocalDesktop.Platform
import LocalDesktop.Core.Config
import LocalDesktop.Core.ConfigLines
import LocalDesktop.Core.ConfigRun
import LocalDesktop.Core.TomlScan
import LocalDesktop.Core.TomlLayout
import LocalDesktop.Core.LineToml
import LocalDesktop.Core.TryOnce
import LocalDesktop.Core.Tables
import LocalDesktop.Core.Sections
import LocalDesktop.Android.Proot.Process
import LocalDesktop.Android.Proot.Forwarding
import LocalDesktop.Android.Proot.Pipes
import LocalDesktop.Android.Proot.Stages
import LocalDesktop.Android.Proot.XkbSymlink
import LocalDesktop.Android.Proot.ArchFs
import LocalDesktop.Android.Proot.StageOps
import LocalDesktop.Android.Proot.Sysdata
import LocalDesktop.Android.Proot.Pipeline
import LocalDesktop.Android.Proot.PipelineOrder
import LocalDesktop.Android.Proot.PipelineFailure
import LocalDesktop.Android.Proot.Launch
import LocalDesktop.Android.Backend.Webview
import LocalDesktop.Android.Backend.Delivery
import LocalDesktop.Android.Backend.Reconnect
import LocalDesktop.Android.Backend.Handshake
import LocalDesktop.Smithay.Row
import LocalDesktop.Smithay.Seat
import LocalDesktop.Android.Backend.Wayland.Input
import LocalDesktop.Android.Backend.Wayland.Keymap
import LocalDesktop.Android.Backend.Wayland.EventCentralizer
import LocalDesktop.Android.Backend.Wayland.RelativePositions
import LocalDesktop.Android.Backend.Wayland.EventHandler
import LocalDesktop.Android.Backend.Wayland.ScreenLimits
import LocalDesktop.Android.App.Run
import LocalDesktop.Android.App.Keys
import LocalDesktop.Android.App.FocusLoss
import LocalDesktop.Android.App.Coordinates
import LocalDesktop.Android.App.TouchPoints
import LocalDesktop.Android.App.Drags
import LocalDesktop.Android.App.TouchStreams
import LocalDesktop.Android.App.Timestamps
import LocalDesktop.Android.App.WheelTurns
import LocalDesktop.Core.Settled
import LocalDesktop.Core.EffectiveLines
import LocalDesktop.Core.SavedLines
import LocalDesktop.Core.StringToml
import LocalDesktop.Core.SaveParse
import LocalDesktop.Core.UserText
import LocalDesktop.Android.Proot.PipelineProgress
import LocalDesktop.Android.Backend.Sampling
import LocalDesktop.Android.Installation
import LocalDesktop.Android.LateClient
import LocalDesktop.Android.ProgressReport
import LocalDesktop.Android.Backend.SetupPage
import LocalDesktop.Android.Proot.Installing
import LocalDesktop.Android.Completion
import LocalDesktop.Smithay.CachedState
import LocalDesktop.Smithay.Transaction
import LocalDesktop.Smithay.SurfaceTree
import LocalDesktop.Smithay.SurfaceForest
import LocalDesktop.Smithay.SurfaceCommit
import LocalDesktop.Smithay.SurfaceRuns
import LocalDesktop.Smithay.FrameCallbacks
import LocalDesktop.Smithay.SurfaceSync
import LocalDesktop.Smithay.SurfaceApply
import LocalDesktop.Smithay.CommitEffect
import LocalDesktop.Smithay.CommitRuns
import LocalDesktop.Android.Backend.Wayland.Redraw
import LocalDesktop.Android.Backend.Wayland.Toplevels
import LocalDesktop.Android.Backend.Wayland.FrameTurns
import LocalDesktop.Winit.Keycodes
import LocalDesktop.Winit.InputEvents
import LocalDesktop.Winit.EventLoop
import LocalDesktop.Winit.LoopTurns
import LocalDesktop.Winit.LoopRuns
import LocalDesktop.Winit.LoopOrder
import LocalDesktop.Android.App.Gestures
import LocalDesktop.Android.App.Crashes
import LocalDesktop.Android.App.Desktop
import LocalDesktop.Android.Backend.Wayland.Shell
import LocalDesktop.Android.Backend.Wayland.ShellEffects
import LocalDesktop.Android.Backend.Wayland.ShellInvariant
import LocalDesktop.Android.Backend.Wayland.Configures
import LocalDesktop.Android.Backend.Wayland.ConfigureMessages
import LocalDesktop.Android.Backend.Wayland.ShellTurns
import LocalDesktop.Smithay.Shm
